import Mathlib
import Overseer.Disk.Tree
import Overseer.Proofs.Disk.Path
import Overseer.Proofs.Table

/-! # Files that come and go do not change where paths lead

Where a path leads depends on which places are directories and on nothing else. Writing a file and putting one in the
place of another change no directory, so afterwards each path leads where it has led before, and what is read under a
path is what was put there last. A directory can be made with those that it lies in unless a file is in the way, and
then nothing else has changed.
-/

namespace Overseer.Tree

variable {t u : Tree} {path : String} {bytes : List UInt8}

theorem isDirectory_nil (t : Tree) : t.isDirectory [] = true := rfl

theorem entry_of_ne {q : List String} (h : q ≠ []) (t : Tree) : t.entry q = t.get? q := by
  unfold entry
  exact if_neg (by simpa using h)

theorem entry_set {q : List String} (h : q ≠ []) (t : Tree) (e : Entry) : entry (t.set q e) q = some e := by
  rw [entry_of_ne h, Table.get?_set]

theorem entry_set_of_ne {q other : List String} (h : other ≠ q) (t : Tree) (e : Entry) :
    entry (t.set q e) other = t.entry other := by
  unfold entry
  rw [Table.get?_set_of_ne h]

theorem isDirectory_iff {q : List String} : t.isDirectory q = true ↔ t.entry q = some .directory := by
  unfold isDirectory
  exact beq_iff_eq

theorem ne_nil_of_isDirectory {q : List String} (h : t.isDirectory q = false) : q ≠ [] := by
  rintro rfl
  cases h

/-! ## Where paths lead -/

/-- With more directories every path that has led to a place leads there still. -/
theorem follow_mono (h : ∀ q, t.isDirectory q = true → u.isDirectory q = true) {start place : List String}
    {names : List String} (hplace : t.follow start names = .ok place) : u.follow start names = .ok place := by
  induction names generalizing start with
  | nil => exact hplace
  | cons name names ih =>
    rw [follow] at hplace ⊢
    cases hstart : t.isDirectory start with
    | false =>
      rw [hstart] at hplace
      cases hplace
    | true =>
      rw [hstart, Bool.not_true, if_neg Bool.false_ne_true] at hplace
      rw [h start hstart, Bool.not_true, if_neg Bool.false_ne_true]
      split at hplace
      · rename_i hskip
        rw [if_pos hskip]
        exact ih hplace
      · rename_i hskip
        rw [if_neg hskip]
        split at hplace
        · rename_i hback
          rw [if_pos hback]
          exact ih hplace
        · rename_i hback
          rw [if_neg hback]
          exact ih hplace

/-- The same places are directories. -/
def SameDirectories (t u : Tree) : Prop := ∀ q, t.isDirectory q = u.isDirectory q

theorem SameDirectories.trans {v : Tree} (h : SameDirectories t u) (h' : SameDirectories u v) :
    SameDirectories t v := fun q => (h q).trans (h' q)

theorem SameDirectories.place_eq (h : SameDirectories t u) {q : List String} (hplace : t.place path = .ok q) :
    u.place path = .ok q := follow_mono (fun q hq => (h q).symm.trans hq) hplace

/-- A file that is written where no directory is. -/
theorem sameDirectories_set {q : List String} (h : t.isDirectory q = false) (bytes : List UInt8) :
    SameDirectories t (t.set q (.file bytes)) := by
  intro other
  by_cases heq : other = q
  · rw [heq, h]
    unfold isDirectory
    rw [entry_set (ne_nil_of_isDirectory h)]
    rfl
  · unfold isDirectory
    rw [entry_set_of_ne heq]

theorem sameDirectories_remove {q : List String} (h : t.isDirectory q = false) : SameDirectories t (t.remove q) := by
  intro other
  by_cases heq : other = q
  · rw [heq, h]
    unfold isDirectory
    rw [entry_of_ne (ne_nil_of_isDirectory h), Table.get?_remove]
    rfl
  · unfold isDirectory entry
    rw [Table.get?_remove_of_ne heq]

/-! ## Files -/

/-- The path leads to a place that is no directory. -/
def Takes (t : Tree) (path : String) : Prop := ∃ q, t.place path = .ok q ∧ t.isDirectory q = false

theorem SameDirectories.takes (h : SameDirectories t u) (htakes : t.Takes path) : u.Takes path := by
  obtain ⟨q, hplace, hfree⟩ := htakes
  exact ⟨q, h.place_eq hplace, (h q).symm.trans hfree⟩

theorem read_of_place {q : List String} (hplace : t.place path = .ok q) (hentry : t.entry q = some (.file bytes)) :
    t.read path = .ok bytes := by
  unfold read find
  rw [hplace]
  dsimp only
  rw [hentry]

theorem isThere_of_read (h : t.read path = .ok bytes) : t.isThere path = true := by
  unfold isThere
  unfold read at h
  split at h
  · cases h
  · cases h
  · rename_i hfind
    rw [hfind]
    rfl

theorem write_of_takes (h : t.Takes path) (bytes : List UInt8) :
    ∃ u, t.write path bytes = .ok u ∧ SameDirectories t u ∧ u.read path = .ok bytes := by
  obtain ⟨q, hplace, hfree⟩ := h
  have hsame := sameDirectories_set hfree bytes
  refine ⟨t.set q (.file bytes), ?_, hsame, ?_⟩
  · unfold write
    rw [hplace]
    dsimp only
    rw [hfree]
    rfl
  · exact read_of_place (hsame.place_eq hplace) (entry_set (ne_nil_of_isDirectory hfree) t _)

theorem takes_of_write (h : t.write path bytes = .ok u) : t.Takes path := by
  unfold write at h
  split at h
  · cases h
  · rename_i q hplace
    cases hdirectory : t.isDirectory q with
    | true =>
      rw [hdirectory] at h
      cases h
    | false => exact ⟨q, hplace, hdirectory⟩

theorem rename_of_takes {source target : String} (hread : t.read source = .ok bytes) (hsource : t.Takes source)
    (htarget : t.Takes target) (hslash : endsInSlash target = false) :
    ∃ u, t.rename source target = .ok u ∧ SameDirectories t u ∧ u.read target = .ok bytes := by
  obtain ⟨old, hold, holdFree⟩ := hsource
  obtain ⟨new, hnew, hnewFree⟩ := htarget
  have hremoved := sameDirectories_remove holdFree
  have hfree : isDirectory (t.remove old) new = false := (hremoved new).symm.trans hnewFree
  have hsame := hremoved.trans (sameDirectories_set hfree bytes)
  refine ⟨(t.remove old).set new (.file bytes), ?_, hsame, ?_⟩
  · unfold rename
    rw [hold, hread]
    dsimp only
    rw [hslash, hnew, if_neg Bool.false_ne_true]
    dsimp only
    rw [hnewFree]
    rfl
  · exact read_of_place (hsame.place_eq hnew) (entry_set (ne_nil_of_isDirectory hfree) _ _)

theorem takes_of_rename {source target : String} (h : t.rename source target = .ok u) :
    t.Takes target ∧ endsInSlash target = false := by
  unfold rename at h
  split at h
  · cases h
  · cases h
  · cases hslash : endsInSlash target with
    | true =>
      rw [hslash] at h
      cases h
    | false =>
      rw [hslash, if_neg Bool.false_ne_true] at h
      split at h
      · cases h
      · rename_i new hnew
        cases hdirectory : t.isDirectory new with
        | true =>
          rw [hdirectory] at h
          cases h
        | false => exact ⟨⟨new, hnew, hdirectory⟩, rfl⟩

/-! ## Directories -/

theorem find_directory_iff : t.find path = .ok .directory ↔ ∃ q, t.place path = .ok q ∧ t.isDirectory q = true := by
  unfold find
  cases t.place path with
  | error e => simp
  | ok q =>
    simp only [isDirectory_iff, Except.ok.injEq, exists_eq_left']
    cases t.entry q with
    | none => simp
    | some e => simp

theorem SameDirectories.find_eq (h : SameDirectories t u) (hfind : t.find path = .ok .directory) :
    u.find path = .ok .directory := by
  obtain ⟨q, hplace, hdirectory⟩ := find_directory_iff.mp hfind
  exact find_directory_iff.mpr ⟨q, h.place_eq hplace, (h q).symm.trans hdirectory⟩

theorem ensureDirectory_of_find (h : t.find path = .ok .directory) : t.ensureDirectory path = .ok t := by
  obtain ⟨q, hplace, hdirectory⟩ := find_directory_iff.mp h
  have hmake : t.makeDirectory path = .error .alreadyThere := by
    unfold makeDirectory
    rw [hplace]
    dsimp only
    rw [isDirectory_iff.mp hdirectory]
    rfl
  unfold ensureDirectory
  rw [hmake, h]
  rfl

theorem ensureDirectory_of_none {q : List String} (hplace : t.place path = .ok q) (hentry : t.entry q = none) :
    t.ensureDirectory path = .ok (t.set q .directory) := by
  have hmake : t.makeDirectory path = .ok (t.set q .directory) := by
    unfold makeDirectory
    rw [hplace]
    dsimp only
    rw [hentry]
    rfl
  unfold ensureDirectory
  rw [hmake]

theorem isDirectory_set_directory {q other : List String} (h : t.isDirectory other = true) :
    isDirectory (t.set q .directory) other = true := by
  by_cases hnil : other = []
  · rw [hnil, isDirectory_nil]
  · rw [isDirectory_iff] at h ⊢
    by_cases heq : other = q
    · subst heq
      exact entry_set hnil t _
    · rw [entry_set_of_ne heq, h]

theorem find_of_ensureDirectory (h : t.ensureDirectory path = .ok u) : u.find path = .ok .directory := by
  unfold ensureDirectory at h
  split at h
  · rename_i v hmake
    cases h
    unfold makeDirectory at hmake
    split at hmake
    · cases hmake
    · rename_i q hplace
      cases hentry : t.entry q with
      | some e =>
        rw [hentry] at hmake
        cases hmake
      | none =>
        rw [hentry] at hmake
        cases hmake
        have hne : q ≠ [] := by
          rintro rfl
          cases hentry
        refine find_directory_iff.mpr ⟨q, follow_mono (fun other => isDirectory_set_directory) hplace, ?_⟩
        exact isDirectory_iff.mpr (entry_set hne t _)
  · split at h
    · rename_i hfound
      cases h
      cases hfind : t.find path with
      | error e =>
        rw [hfind] at hfound
        cases hfound
      | ok e =>
        rw [hfind] at hfound
        exact congrArg Except.ok (Option.some.inj (beq_iff_eq.mp hfound))
    · cases h

theorem makeDirectories_of_ensureDirectory (h : t.ensureDirectory path = .ok u) (n : ℕ) :
    makeDirectories (n + 1) path t = .ok u := by
  rw [makeDirectories, h]

theorem find_of_makeDirectories {n : ℕ} (h : makeDirectories n path t = .ok u) : u.find path = .ok .directory := by
  cases n with
  | zero => cases h
  | succ n =>
    rw [makeDirectories] at h
    split at h
    · split at h
      · exact find_of_ensureDirectory h
      · cases h
    · exact find_of_ensureDirectory h

end Overseer.Tree
