import Mathlib
import Overseer.Proofs.Config.File
import Overseer.Proofs.Disk.Directories

/-! # A configuration comes back from the disk

A configuration is stored in three steps: the directory of the path is made, the temporary file is written, and it
takes the place of the file. Once the directory is there nothing that is done changes where paths lead, so the file is
found under its path with what was written, which is read as the configuration, and to store it again succeeds as it
has before. All of this goes well under every path that ends in a name, unless a file is in the way of a directory or
a directory in the way of a file.
-/

open Overseer.Tree Overseer.Config

namespace Overseer

variable {t u made : Tree} {path : String} {bytes : List UInt8}

/-! ## Replacing a file -/

namespace Tree

theorem bind_apply {α β : Type} (x : StateM Tree α) (next : α → StateM Tree β) (t : Tree) :
    (x >>= next) t = next (x t).1 (x t).2 := rfl

theorem change_of_ok {f : Tree → Except FileError Tree} (h : f t = .ok u) : change f t = (.ok (), u) := by
  unfold change
  rw [h]

theorem change_of_error {f : Tree → Except FileError Tree} {e : FileError} (h : f t = .error e) :
    change f t = (.error e, t) := by
  unfold change
  rw [h]

/-- The three steps of a replacement, each of which can fail. -/
theorem replaceFile_eq (t : Tree) (path : String) (bytes : List UInt8) :
    replaceFile disk path bytes t =
      match makeDirectories ((names (Path.parent path)).length + 1) (Path.parent path) t with
      | .error e => (.error (.directory (Path.parent path) e), t)
      | .ok made =>
          match made.write (temporaryPath path) bytes with
          | .error e => (.error (.temporary (temporaryPath path) e), made)
          | .ok written =>
              match written.rename (temporaryPath path) path with
              | .error e => (.error (.replacing path e), written)
              | .ok u => (.ok (), u) := by
  unfold replaceFile disk
  dsimp only
  rw [bind_apply]
  cases hmake : makeDirectories ((names (Path.parent path)).length + 1) (Path.parent path) t with
  | error e =>
    rw [change_of_error hmake]
    rfl
  | ok made =>
    rw [change_of_ok hmake]
    dsimp only
    rw [bind_apply]
    cases hwrite : made.write (temporaryPath path) bytes with
    | error e =>
      rw [change_of_error (f := (·.write (temporaryPath path) bytes)) hwrite]
      rfl
    | ok written =>
      rw [change_of_ok (f := (·.write (temporaryPath path) bytes)) hwrite]
      dsimp only
      rw [bind_apply]
      cases hrename : written.rename (temporaryPath path) path with
      | error e =>
        rw [change_of_error (f := (·.rename (temporaryPath path) path)) hrename]
        rfl
      | ok u =>
        rw [change_of_ok (f := (·.rename (temporaryPath path) path)) hrename]
        rfl

/-- The directory of the path is made, and the path and that of the temporary file lead to places for files. -/
structure Prepared (t : Tree) (path : String) (made : Tree) : Prop where
  directories : makeDirectories ((names (Path.parent path)).length + 1) (Path.parent path) t = .ok made
  temporary : made.Takes (temporaryPath path)
  target : made.Takes path
  slash : endsInSlash path = false

theorem replaceFile_of_prepared (h : Prepared t path made) (bytes : List UInt8) :
    ∃ u, replaceFile disk path bytes t = (.ok (), u) := by
  obtain ⟨written, hwrite, hsame, hread⟩ := write_of_takes h.temporary bytes
  obtain ⟨u, hrename, -, -⟩ := rename_of_takes hread (hsame.takes h.temporary) (hsame.takes h.target) h.slash
  refine ⟨u, ?_⟩
  rw [replaceFile_eq, h.directories]
  dsimp only
  rw [hwrite]
  dsimp only
  rw [hrename]

/-- A replacement that succeeds has done all of its steps. -/
theorem exists_steps (h : replaceFile disk path bytes t = (.ok (), u)) :
    ∃ made written, makeDirectories ((names (Path.parent path)).length + 1) (Path.parent path) t = .ok made ∧
      made.write (temporaryPath path) bytes = .ok written ∧ written.rename (temporaryPath path) path = .ok u := by
  rw [replaceFile_eq] at h
  split at h
  · cases h
  · rename_i made hmake
    split at h
    · cases h
    · rename_i written hwrite
      split at h
      · cases h
      · rename_i renamed hrename
        obtain rfl : renamed = u := congrArg Prod.snd h
        exact ⟨made, written, hmake, hwrite, hrename⟩

/-- What holds after every replacement that succeeds. -/
theorem of_replaceFile (h : replaceFile disk path bytes t = (.ok (), u)) :
    u.read path = .ok bytes ∧ Prepared u path u := by
  obtain ⟨made, written, hmake, hwrite, hrename⟩ := exists_steps h
  have htemporary := takes_of_write hwrite
  obtain ⟨written', hwrite', hsame, hread⟩ := write_of_takes htemporary bytes
  obtain rfl : written = written' := Except.ok.inj (hwrite.symm.trans hwrite')
  obtain ⟨htarget, hslash⟩ := takes_of_rename hrename
  obtain ⟨u', hrename', hsame', hread'⟩ := rename_of_takes hread (hsame.takes htemporary) htarget hslash
  obtain rfl : u = u' := Except.ok.inj (hrename.symm.trans hrename')
  have hall := hsame.trans hsame'
  refine ⟨hread', ?_, hall.takes htemporary, hsame'.takes htarget, hslash⟩
  have hfind := hall.find_eq (find_of_makeDirectories hmake)
  exact makeDirectories_of_ensureDirectory (ensureDirectory_of_find hfind) _

/-! ## Paths for files -/

/-- The place that a path leads to if nothing is in the way. -/
def placeOf (path : String) : List String := destination [] (Text.splitOn '/' path.toList)

/-- The places that are directories once the directory of the path has been made. -/
def above (path : String) : List (List String) := visited [] (Path.steps (Path.parent path).toList)

/-- A path under which a file can be put: it ends in a name, no file is in the place of a directory that it lies in,
and no directory is in the place of the file or of the temporary one. -/
structure Accepts (t : Tree) (path : String) : Prop where
  named : ∃ front name, Text.splitOn '/' path.toList = front ++ [name] ∧ Path.isName name = true
  passable : t.Passable (above path)
  target : placeOf path ∉ above path ∧ t.isDirectory (placeOf path) = false
  temporary : placeOf (temporaryPath path) ∉ above path ∧ t.isDirectory (placeOf (temporaryPath path)) = false

theorem endsInSlash_of_isName {front : List (List Char)} {name : List Char}
    (hparts : Text.splitOn '/' path.toList = front ++ [name]) (hname : Path.isName name = true) :
    endsInSlash path = false := by
  unfold endsInSlash
  rw [beq_eq_false_iff_ne]
  intro hlast
  obtain ⟨s, hs⟩ := List.getLast?_eq_some_iff.mp hlast
  rw [hs, Text.splitOn_append] at hparts
  obtain ⟨-, hempty⟩ := List.append_inj' hparts rfl
  exact (Path.isName_iff.mp hname).1 (List.cons.inj hempty).1.symm

theorem Made.takes {other : String} (hmade : Made (above path) t made) {front : List (List Char)} {name : List Char}
    (hfront : ∀ q ∈ visited [] front, q ∈ above path) (hparts : Text.splitOn '/' other.toList = front ++ [name])
    (hfree : placeOf other ∉ above path ∧ t.isDirectory (placeOf other) = false) : made.Takes other := by
  refine ⟨placeOf other, ?_, ?_⟩
  · unfold place names placeOf
    rw [hparts]
    exact follow_of_directories (fun q hq => hmade.directories q (hfront q hq)) name
  · unfold isDirectory
    rw [hmade.others _ hfree.1]
    exact hfree.2

theorem Accepts.prepared (h : t.Accepts path) : ∃ made, Prepared t path made := by
  obtain ⟨front, name, hparts, hname⟩ := h.named
  have hstep := Path.isStep_of_isName hname
  have hlength : (Path.steps (Path.parent path).toList).length ≤ (names (Path.parent path)).length := by
    unfold Path.steps names
    rw [List.length_map]
    exact List.length_filter_le _ _
  obtain ⟨made, hmake, hmade⟩ := makeDirectories_of_passable (Path.neat_parent path) hlength h.passable
  have hfront : ∀ q ∈ visited [] front, q ∈ above path := fun q hq => by
    unfold above
    rw [Path.steps_parent_of_isStep hparts hstep]
    exact mem_visited_filter.mpr hq
  obtain ⟨other, hother⟩ := Path.splitOn_temporaryPath hparts hname
  exact ⟨made, hmake, Made.takes hmade hfront hother h.temporary, Made.takes hmade hfront hparts h.target,
    endsInSlash_of_isName hparts hname⟩

end Tree

/-! ## Storing and loading -/

namespace Config

variable {c : Config}

theorem store_eq (hvalid : c.validate = .ok ()) (path : String) (t : Tree) :
    store disk path c t = replaceFile disk path (Text.encode c.fileText.toList) t := by
  unfold store
  rw [hvalid]

theorem load_of_read (h : t.read path = .ok bytes) : load disk path t = (ofBytes bytes, t) := by
  have hthere : disk.isThere path t = (true, t) := congrArg (·, t) (isThere_of_read h)
  have hread : disk.read path t = (.ok bytes, t) := congrArg (·, t) h
  unfold load
  rw [Tree.bind_apply, hthere]
  dsimp only
  rw [if_neg (by decide), Tree.bind_apply, hread]
  rfl

/-- A valid configuration without a NaN among its prices can be stored under every path for files, and wherever it has
been stored it is loaded as it was, now and after it has been stored again. -/
theorem load_of_store (hvalid : c.validate = .ok ()) (hfits : c.Fits) (hprices : c.cost.Numeric) (path : String)
    (t : Tree) :
    (t.Accepts path → ∃ u, store disk path c t = (.ok (), u)) ∧
      ∀ u, store disk path c t = (.ok (), u) →
        load disk path u = (.ok c, u) ∧ ∃ v, store disk path c u = (.ok (), v) ∧ load disk path v = (.ok c, v) := by
  have hload : ∀ t u, store disk path c t = (.ok (), u) → load disk path u = (.ok c, u) := by
    intro t u hstore
    rw [store_eq hvalid] at hstore
    rw [load_of_read (of_replaceFile hstore).1, ofBytes_fileText hvalid hfits hprices]
  constructor
  · intro haccepts
    obtain ⟨made, hprepared⟩ := haccepts.prepared
    rw [store_eq hvalid]
    exact replaceFile_of_prepared hprepared _
  · intro u hstore
    refine ⟨hload t u hstore, ?_⟩
    rw [store_eq hvalid] at hstore
    obtain ⟨v, hagain⟩ := replaceFile_of_prepared (of_replaceFile hstore).2 (Text.encode c.fileText.toList)
    rw [← store_eq hvalid] at hagain
    exact ⟨v, hagain, hload u v hagain⟩

/-- A configuration with names and words that have to be quoted, the largest of all limits and infinite prices. -/
def peculiar : Config :=
  { Config.standard with
    queue := ⟨1, some 18446744073709551615⟩
    commands := ⟨"a \"b\"\tc", 7, [("", ["'''", ""]), ("é.x", ["\u007f", "\\"])]⟩
    cost := ⟨1 / 0, [("diagnose", 0.1), ("fix = ]", -1 / 0)]⟩ }

theorem load_of_store_peculiar :
    peculiar.validate = .ok () ∧ peculiar.Fits ∧ peculiar.cost.Numeric ∧ Tree.empty.Accepts "etc/conductor.toml" ∧
      ∃ u, store disk "etc/conductor.toml" peculiar .empty = (.ok (), u) ∧
        load disk "etc/conductor.toml" u = (.ok peculiar, u) := by
  have hvalid : peculiar.validate = .ok () := by decide
  have hfits : peculiar.Fits :=
    ⟨by decide, by decide, by decide, by decide, by decide, by decide, by decide, by decide, by decide, by decide,
      by decide, by decide⟩
  have hprices : peculiar.cost.Numeric := ⟨by decide, by decide⟩
  have haccepts : Tree.empty.Accepts "etc/conductor.toml" := by
    refine ⟨⟨["etc".toList], "conductor.toml".toList, by decide, by decide⟩, ?_, by decide, by decide⟩
    intro q _ bytes hentry
    unfold Tree.entry at hentry
    split at hentry
    · cases hentry
    · cases hentry
  obtain ⟨hstore, hload⟩ := load_of_store hvalid hfits hprices "etc/conductor.toml" .empty
  obtain ⟨u, hu⟩ := hstore haccepts
  exact ⟨hvalid, hfits, hprices, haccepts, u, hu, (hload u hu).1⟩

end Config

end Overseer
