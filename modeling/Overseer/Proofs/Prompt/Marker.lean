import Overseer.Healing.Prompt
import Overseer.Proofs.Failure.Grammar
import Overseer.Proofs.Text.Blank
import Mathlib.Data.List.Infix

/-! # Section markers

What a marker is, told as a text (`IsMarker`), and where the reader of a template finds one. A marker has one `<`, at
its start, and one `>`, at its end, so a text without markers stays without them when a marker or a text without `>`
comes after it (`shut_of_head`). The one inserted text that another one follows is a diagnosis with a suggestion;
what stands between them has a colon, and the only colon of a marker follows the word `section` (`shut_of_colon`). The
items of a template are then the markers that are written in it and the characters between them (`items_marker`,
`items_bare`).
-/

namespace Overseer.Prompt

open Text (isBlank isWord)

/-! ## What a marker is -/

def kindText (required : Bool) : List Char := if required then "required".toList else "droppable".toList

/-- A comment with the key of a section, and whether it is required. White space may differ. -/
def IsMarker (key : List Char) (required : Bool) (w : List Char) : Prop :=
  ∃ b₁ b₂ b₃ : List Char, (∀ c ∈ b₁, isBlank c = true) ∧ (∀ c ∈ b₂, isBlank c = true) ∧ (∀ c ∈ b₃, isBlank c = true) ∧
    b₂ ≠ [] ∧ key ≠ [] ∧ (∀ c ∈ key, isWord c = true) ∧
    w = "<!--".toList ++ (b₁ ++ ("section:".toList ++ (key ++ (b₂ ++ (kindText required ++ (b₃ ++ "-->".toList))))))

/-- No marker is anywhere in the text. -/
def Markerless (s : List Char) : Prop := ∀ key required w, IsMarker key required w → ¬ w <:+: s

variable {key w s t u rest tail : List Char} {required : Bool}

theorem after?_eq_some_iff : after? w s = some rest ↔ s = w ++ rest := by
  induction w generalizing s with
  | nil =>
    rw [after?, Option.some.injEq]
    rfl
  | cons c w ih =>
    cases s with
    | nil =>
      rw [after?]
      exact ⟨fun h => (nomatch h), fun h => (nomatch h)⟩
    | cons d s =>
      rw [after?]
      split
      · rename_i h
        subst h
        rw [ih, List.cons_append, List.cons.injEq]
        exact ⟨fun h => ⟨rfl, h⟩, fun h => h.2⟩
      · rename_i h
        exact ⟨fun he => (nomatch he), fun he => absurd (List.cons.inj he).1.symm h⟩

theorem markerKind?_eq_some_iff : markerKind? s = some (required, rest) ↔ s = kindText required ++ rest := by
  rw [markerKind?]
  cases h : after? "required".toList s with
  | some r =>
    obtain rfl := after?_eq_some_iff.mp h
    cases required with
    | true => simp [kindText]
    | false => simp [kindText]
  | none =>
    have hnot (r : List Char) : s ≠ "required".toList ++ r := fun he => by
      rw [after?_eq_some_iff.mpr he] at h
      cases h
    cases required with
    | true => exact ⟨fun he => by simp at he, fun he => absurd he (hnot rest)⟩
    | false => simp [kindText, after?_eq_some_iff]

theorem takeWhile_of_ends {p : Char → Bool} (h : Noise.Ends p s) : s.takeWhile p = [] := by
  cases s with
  | nil => rfl
  | cons c s => exact List.takeWhile_cons_of_neg (by rw [h.head]; exact Bool.false_ne_true)

theorem stripStart_append (hb : ∀ c ∈ t, isBlank c = true) (hs : Noise.Ends isBlank s) : Text.stripStart (t ++ s) = s :=
  (List.dropWhile_append_of_pos hb).trans (Noise.dropWhile_of_ends hs)

theorem exists_stripStart (s : List Char) : ∃ b, (∀ c ∈ b, isBlank c = true) ∧ s = b ++ Text.stripStart s :=
  ⟨s.takeWhile isBlank, fun _ hc => List.mem_takeWhile_imp hc, List.takeWhile_append_dropWhile.symm⟩

theorem ends_kindText (required : Bool) (s : List Char) : Noise.Ends isBlank (kindText required ++ s) := by
  cases required with
  | true => exact Noise.ends_cons (by decide) _
  | false => exact Noise.ends_cons (by decide) _

/-- The reader finds the markers and nothing else. -/
theorem marker?_eq_some_iff :
    marker? s = some ⟨key, required, rest⟩ ↔ ∃ w, IsMarker key required w ∧ s = w ++ rest := by
  simp only [marker?, Option.bind_eq_bind, Option.bind_eq_some_iff, after?_eq_some_iff]
  constructor
  · rintro ⟨s₁, rfl, s₂, hs₂, h⟩
    split at h
    · cases h
    · rename_i hkey
      simp only [Bool.or_eq_true, Bool.not_eq_true', not_or, Bool.not_eq_false, Option.any_eq_true,
        List.isEmpty_iff] at hkey
      obtain ⟨hne, c, hhead, hc⟩ := hkey
      simp only [Option.bind_eq_some_iff, Prod.exists, markerKind?_eq_some_iff, after?_eq_some_iff, Option.some.injEq,
        Marker.mk.injEq] at h
      obtain ⟨required', s₃, hs₃, s₄, hs₄, rfl, rfl, rfl⟩ := h
      obtain ⟨b₁, hb₁, he₁⟩ := exists_stripStart s₁
      obtain ⟨b₂, hb₂, he₂⟩ := exists_stripStart (s₂.dropWhile isWord)
      obtain ⟨b₃, hb₃, he₃⟩ := exists_stripStart s₃
      have hword : ∀ c ∈ s₂.takeWhile isWord, isWord c = true := fun c hc => List.mem_takeWhile_imp hc
      have hsplit : s₂ = s₂.takeWhile isWord ++ s₂.dropWhile isWord := List.takeWhile_append_dropWhile.symm
      generalize s₂.takeWhile isWord = word at hne hword hsplit ⊢
      rw [hs₃] at he₂
      have hb₂' : b₂ ≠ [] := by
        rintro rfl
        rw [he₂] at hhead
        rw [ends_kindText required' s₃ c hhead] at hc
        cases hc
      refine ⟨_, ⟨b₁, b₂, b₃, hb₁, hb₂, hb₃, hb₂', hne, hword, rfl⟩, ?_⟩
      rw [he₁, hs₂, hsplit, he₂, he₃, hs₄]
      simp only [List.append_assoc]
  · rintro ⟨_, ⟨b₁, b₂, b₃, hb₁, hb₂, hb₃, hb₂', hne, hword, rfl⟩, rfl⟩
    have hgap : Noise.Ends isWord (b₂ ++ (kindText required ++ (b₃ ++ ("-->".toList ++ rest)))) := by
      obtain ⟨c, b₂, rfl⟩ := List.exists_cons_of_ne_nil hb₂'
      exact Noise.ends_cons (Text.isWord_of_isBlank (hb₂ c List.mem_cons_self)) _
    have hblank : (b₂ ++ (kindText required ++ (b₃ ++ ("-->".toList ++ rest)))).head?.any isBlank = true := by
      obtain ⟨c, b₂, rfl⟩ := List.exists_cons_of_ne_nil hb₂'
      exact hb₂ c List.mem_cons_self
    have hsection (x : List Char) : Noise.Ends isBlank ("section:".toList ++ x) := Noise.ends_cons (by decide) _
    have hend : Noise.Ends isBlank ("-->".toList ++ rest) := Noise.ends_cons (by decide) _
    refine ⟨b₁ ++ ("section:".toList ++ (key ++ (b₂ ++ (kindText required ++ (b₃ ++ ("-->".toList ++ rest)))))),
      by simp only [List.append_assoc], _, stripStart_append hb₁ (hsection _), ?_⟩
    have hempty : key.isEmpty = false := by
      rw [Bool.eq_false_iff, ne_eq, List.isEmpty_iff]
      exact hne
    rw [List.takeWhile_append_of_pos hword, List.dropWhile_append_of_pos hword, takeWhile_of_ends hgap,
      Noise.dropWhile_of_ends hgap, List.append_nil, hempty, hblank,
      stripStart_append hb₂ (ends_kindText required _), markerKind?_eq_some_iff.mpr rfl, if_neg (by decide),
      Option.bind_some]
    exact Option.bind_eq_some_iff.mpr ⟨rest, after?_eq_some_iff.mpr (stripStart_append hb₃ hend), rfl⟩

/-! ## What is in a marker -/

/-- After the angle bracket at its start a marker goes on without another one, up to the one at its end. -/
theorem IsMarker.bracket (h : IsMarker key required w) : ∃ v, w = '<' :: (v ++ ['>']) ∧ '<' ∉ v ++ ['>'] := by
  obtain ⟨b₁, b₂, b₃, hb₁, hb₂, hb₃, -, -, hword, rfl⟩ := h
  refine ⟨"!--".toList ++ (b₁ ++ ("section:".toList ++ (key ++ (b₂ ++ (kindText required ++ (b₃ ++ "--".toList)))))),
    by simp, ?_⟩
  have hblank {b : List Char} (hb : ∀ c ∈ b, isBlank c = true) : '<' ∉ b := fun hmem => absurd (hb _ hmem) (by decide)
  have hkey : '<' ∉ key := fun hmem => absurd (hword _ hmem) (by decide +kernel)
  have hkind : '<' ∉ kindText required := by
    cases required with
    | true => decide
    | false => decide
  simp [hblank hb₁, hblank hb₂, hblank hb₃, hkey, hkind]

theorem IsMarker.hash (h : IsMarker key required w) : '#' ∉ w := by
  obtain ⟨b₁, b₂, b₃, hb₁, hb₂, hb₃, -, -, hword, rfl⟩ := h
  have hblank {b : List Char} (hb : ∀ c ∈ b, isBlank c = true) : '#' ∉ b := fun hmem => absurd (hb _ hmem) (by decide)
  have hkey : '#' ∉ key := fun hmem => absurd (hword _ hmem) (by decide +kernel)
  have hkind : '#' ∉ kindText required := by
    cases required with
    | true => decide
    | false => decide
  simp [hblank hb₁, hblank hb₂, hblank hb₃, hkey, hkind]

/-- The one colon follows the word `section`. -/
theorem IsMarker.colon (h : IsMarker key required (u ++ ':' :: t)) : u.getLast? = some 'n' := by
  obtain ⟨b₁, b₂, b₃, hb₁, hb₂, hb₃, -, -, hword, he⟩ := h
  have hblank {b : List Char} (hb : ∀ c ∈ b, isBlank c = true) : ':' ∉ b := fun hmem => absurd (hb _ hmem) (by decide)
  have hkey : ':' ∉ key := fun hmem => absurd (hword _ hmem) (by decide +kernel)
  have hkind : ':' ∉ kindText required := by
    cases required with
    | true => decide
    | false => decide
  have hleft : ':' ∉ "<!--".toList ++ (b₁ ++ "section".toList) := by simp [hblank hb₁]
  have hright : ':' ∉ key ++ (b₂ ++ (kindText required ++ (b₃ ++ "-->".toList))) := by
    simp [hblank hb₂, hblank hb₃, hkey, hkind]
  have hsplit : ("<!--".toList ++ (b₁ ++ "section".toList)) ++
      ':' :: (key ++ (b₂ ++ (kindText required ++ (b₃ ++ "-->".toList)))) = u ++ ':' :: t := by
    rw [he]
    simp
  obtain ⟨rfl, -⟩ := (List.append_cons_inj_of_notMem hleft hright).mp hsplit
  rw [← List.append_assoc, List.getLast?_append]
  rfl

/-! ## Texts after which a marker does not go on -/

/-- No marker that begins before the text ends in it. -/
def Shut (tail : List Char) : Prop :=
  ∀ key required u t, IsMarker key required (u ++ t) → u ≠ [] → t ≠ [] → ¬ t <+: tail

/-- A marker that ends in a text, having begun before, has an angle bracket there that closes, and none that opens. -/
theorem IsMarker.suffix (h : IsMarker key required (u ++ t)) (hu : u ≠ []) (ht : t ≠ []) : '>' ∈ t ∧ '<' ∉ t := by
  obtain ⟨v, he, hnot⟩ := h.bracket
  obtain ⟨c, u, rfl⟩ := List.exists_cons_of_ne_nil hu
  have he : u ++ t = v ++ ['>'] := (List.cons.inj he).2
  constructor
  · have hlast := congrArg List.getLast? he
    rw [List.getLast?_append, List.getLast?_eq_some_getLast ht, List.getLast?_concat] at hlast
    have hlast : t.getLast ht = '>' := Option.some.inj hlast
    exact hlast ▸ List.getLast_mem ht
  · exact fun hmem => hnot (he ▸ List.mem_append_right u hmem)

/-- Such a marker goes past a text in which no angle bracket closes. -/
theorem IsMarker.past (h : IsMarker key required (u ++ t)) (hu : u ≠ []) (ht : t ≠ []) (hs : '>' ∉ s)
    (hfront : t <+: s ++ rest) : ∃ r, t = s ++ r ∧ r ≠ [] ∧ r <+: rest := by
  obtain ⟨hclose, -⟩ := h.suffix hu ht
  rcases List.prefix_or_prefix_of_prefix hfront (List.prefix_append s rest) with hshort | ⟨r, rfl⟩
  · exact absurd (hshort.subset hclose) hs
  · refine ⟨r, rfl, ?_, (List.prefix_append_right_inj s).mp hfront⟩
    rintro rfl
    rw [List.append_nil] at hclose
    exact hs hclose

/-- What comes after such a text begins with a character that does not stand inside a marker. -/
theorem shut_of_head (hs : '>' ∉ s) (hrest : ∀ c ∈ rest.head?, c = '<' ∨ c = '#') : Shut (s ++ rest) := by
  rintro key required u t h hu ht hfront
  obtain ⟨r, rfl, hr, r', rfl⟩ := h.past hu ht hs hfront
  obtain ⟨c, r, rfl⟩ := List.exists_cons_of_ne_nil hr
  rcases hrest c rfl with rfl | rfl
  · exact (h.suffix hu ht).2 (List.mem_append_right s List.mem_cons_self)
  · exact h.hash (List.mem_append_right u (List.mem_append_right s List.mem_cons_self))

theorem shut_of_colon {c : Char} (hs : '>' ∉ s ++ [c, ':']) (hc : c ≠ 'n') (rest : List Char) :
    Shut (s ++ [c, ':'] ++ rest) := by
  rintro key required u t h hu ht hfront
  obtain ⟨r, rfl, -⟩ := h.past hu ht hs hfront
  have hsplit : u ++ (s ++ [c, ':'] ++ r) = u ++ s ++ [c] ++ ':' :: r := by simp
  rw [hsplit] at h
  have hlast := h.colon
  rw [List.getLast?_concat] at hlast
  exact hc (Option.some.inj hlast)

/-- In this text no marker begins, when the other one comes after it. -/
def Bare (s tail : List Char) : Prop := ∀ x y, s = x ++ y → y ≠ [] → marker? (y ++ tail) = none

theorem bare_of_shut (hs : Markerless s) (htail : Shut tail) : Bare s tail := by
  rintro x y rfl hy
  rw [Option.eq_none_iff_forall_ne_some]
  rintro ⟨key, required, rest⟩ hm
  obtain ⟨w, hw, he⟩ := marker?_eq_some_iff.mp hm
  rcases List.append_eq_append_iff.mp he with ⟨t, rfl, htail'⟩ | ⟨t, rfl, -⟩
  · by_cases ht : t = []
    · subst ht
      rw [List.append_nil] at hw
      exact hs key required y hw (List.suffix_append x y).isInfix
    · exact htail key required y t hw hy ht ⟨rest, htail'.symm⟩
  · exact hs key required w hw ⟨x, t, by rw [List.append_assoc]⟩

theorem bare_of_bracket (hs : '<' ∉ s) (tail : List Char) : Bare s tail := by
  rintro x y rfl hy
  obtain ⟨c, y, rfl⟩ := List.exists_cons_of_ne_nil hy
  rw [Option.eq_none_iff_forall_ne_some]
  rintro ⟨key, required, rest⟩ hm
  obtain ⟨w, hw, he⟩ := marker?_eq_some_iff.mp hm
  obtain ⟨v, rfl, -⟩ := hw.bracket
  rw [(List.cons.inj he).1] at hs
  exact hs (List.mem_append_right x List.mem_cons_self)

theorem Bare.append (hs : Bare s (t ++ tail)) (ht : Bare t tail) : Bare (s ++ t) tail := by
  intro x y hxy hy
  rcases List.append_eq_append_iff.mp hxy with ⟨z, -, rfl⟩ | ⟨z, rfl, rfl⟩
  · exact ht z y rfl hy
  · by_cases hz : z = []
    · subst hz
      exact ht [] t rfl hy
    · rw [List.append_assoc]
      exact hs x z rfl hz

theorem markerless_of_bracket (hs : '<' ∉ s) : Markerless s := by
  intro key required w hw hwithin
  obtain ⟨v, rfl, -⟩ := hw.bracket
  exact hs (hwithin.subset List.mem_cons_self)

/-! ## The items of a template -/

theorem items_bare (h : Bare s tail) : items (s ++ tail) = s.map Item.char ++ items tail := by
  induction s with
  | nil => rfl
  | cons c s ih =>
    have hnone : marker? (c :: (s ++ tail)) = none := h [] (c :: s) rfl (List.cons_ne_nil c s)
    have hrest : Bare s tail := fun x y hxy hy => h (c :: x) y (by rw [hxy]; rfl) hy
    rw [items, List.cons_append, itemsFrom, hnone]
    exact congrArg (Item.char c :: ·) (ih hrest)

theorem itemsFrom_skip (s tail : List Char) : itemsFrom s.length (s ++ tail) = items tail := by
  induction s with
  | nil => rfl
  | cons c s ih => rw [List.length_cons, List.cons_append, itemsFrom, ih]

theorem items_marker (h : IsMarker key required w) (tail : List Char) :
    items (w ++ tail) = .marker key required :: items tail := by
  have hm : marker? (w ++ tail) = some ⟨key, required, tail⟩ := marker?_eq_some_iff.mpr ⟨w, h, rfl⟩
  obtain ⟨v, rfl, -⟩ := h.bracket
  rw [List.cons_append] at hm
  rw [items, List.cons_append, itemsFrom, hm]
  show Item.marker key required :: itemsFrom ((v ++ ['>'] ++ tail).length - tail.length) (v ++ ['>'] ++ tail) = _
  rw [List.length_append, Nat.add_sub_cancel, itemsFrom_skip]

end Overseer.Prompt
