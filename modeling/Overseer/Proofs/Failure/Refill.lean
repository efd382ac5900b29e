import Overseer.Failure.Signature
import Overseer.Proofs.Failure.Replace

/-! # Noise that changes from run to run

Two texts are made of the same pieces, with other tokens of the same sorts in the gaps (`Refilled`). Each kind of noise
is replaced in its turn, and then its sort of gap is gone: what was in it is part of a piece, the same in both texts.
With no gap left the texts are equal. A token that it is not the turn of is passed over, since it has no character that
the pattern asks for. Only numbers may be taken before their turn, as the first half of a duration whose unit stands in
the piece after them; this depends on the piece alone.
-/

namespace Overseer.Noise

open Text (isBlank isWord)

/-- A timestamp with its fraction and its zone, or without. -/
def IsTimestamp (s : List Char) : Prop :=
  ∃ stamp fraction zone, IsStamp stamp ∧ IsFraction fraction ∧ IsZone zone ∧ s = stamp ++ (fraction ++ zone)

inductive Token
  | timestamp
  | address
  | duration
  | number
  deriving DecidableEq

/-- The texts that are a token of a sort. -/
def Token.Covers : Token → List Char → Prop
  | timestamp => IsTimestamp
  | address => IsAddress
  | duration => IsSpan
  | number => IsLongNumber

/-- Two texts with the same pieces. The pieces have no digits, each gap has a token of the same sort in both, and a
token has white space or an end of the text on both sides. -/
inductive Refilled (sorts : List Token) : List Char → List Char → Prop
  | piece {p : List Char} (hp : ∀ c ∈ p, digit c = false) : Refilled sorts p p
  | gap {p t u s s' : List Char} (sort : Token) (hsort : sort ∈ sorts) (hp : ∀ c ∈ p, digit c = false)
      (hbefore : ∀ c ∈ p.getLast?, isBlank c = true) (ht : sort.Covers t) (hu : sort.Covers u) (hafter : Open s)
      (rest : Refilled sorts s s') : Refilled sorts (p ++ (t ++ s)) (p ++ (u ++ s'))

variable {k : Kind} {sorts : List Token} {p q s s' t r : List Char}

/-! ## Tokens -/

theorem Token.Covers.exists_cons {sort : Token} (h : sort.Covers t) :
    ∃ c rest, t = c :: rest ∧ digit c = true := by
  cases sort with
  | timestamp =>
    obtain ⟨a, f, z, ha, -, -, rfl⟩ := h
    obtain ⟨c, rest, rfl, hc⟩ := ha.exists_cons
    exact ⟨c, _, rfl, hc⟩
  | address => exact IsAddress.exists_cons h
  | duration => exact IsSpan.exists_cons h
  | number => exact IsLongNumber.exists_cons h

theorem Token.Covers.ne_nil {sort : Token} (h : sort.Covers t) : t ≠ [] := ne_nil_of_exists_cons h.exists_cons

theorem hyphen_not_mem {sort : Token} (hsort : sort ≠ .timestamp) (h : sort.Covers t) : '-' ∉ t := by
  intro hmem
  cases sort with
  | timestamp => exact hsort rfl
  | address =>
    obtain ⟨digits, -, hall, rfl⟩ := h
    rcases List.mem_cons.mp hmem with he | hmem
    · cases he
    · rcases List.mem_cons.mp hmem with he | hmem
      · cases he
      · exact absurd (hall _ hmem) (by decide)
  | duration =>
    rcases IsSpan.mem h hmem with hc | hc | hc
    · exact absurd hc (by decide)
    · exact absurd hc (by decide)
    · exact absurd hc (by decide)
  | number => exact absurd (h.2 _ hmem) (by decide)

theorem x_not_mem {sort : Token} (hsort : sort = .duration ∨ sort = .number) (h : sort.Covers t) : 'x' ∉ t := by
  intro hmem
  rcases hsort with rfl | rfl
  · rcases IsSpan.mem h hmem with hc | hc | hc
    · exact absurd hc (by decide)
    · exact absurd hc (by decide)
    · exact absurd hc (by decide)
  · exact absurd (h.2 _ hmem) (by decide)

/-! ## Tokens in their turn -/

theorem zone_sign {sign : Char} (h : sign = '+' ∨ sign = '-') (s : List Char) :
    zone (sign :: s) = (times digit 2 s).bind fun s => times digit 2 (optional (char ':') s) := by
  rcases h with rfl | rfl
  · rfl
  · rfl

theorem Digits.times_append {n : Nat} (h : Digits n t) (s : List Char) : times digit n (t ++ s) = some s :=
  times_eq_some_iff.mpr ⟨t, h.1, h.2, rfl⟩

theorem optional_zone_of_open {z : List Char} (hz : IsZone z) (hs : Open s) : optional zone (z ++ s) = s := by
  have hnone : zone s = none := by
    rw [Option.eq_none_iff_forall_ne_some]
    intro r hr
    cases s with
    | nil => cases hr
    | cons c s =>
      have hblank : isBlank c = true := hs c rfl
      unfold zone at hr
      split at hr
      · rename_i he
        rw [(List.cons.inj he).1] at hblank
        exact absurd hblank (by decide)
      · obtain ⟨u, hone, -⟩ := Option.bind_eq_some_iff.mp hr
        obtain ⟨d, hd, he⟩ := one_eq_some_iff.mp hone
        rw [(List.cons.inj he).1] at hblank
        rw [Bool.or_eq_true, beq_iff_eq, beq_iff_eq] at hd
        rcases hd with rfl | rfl
        · exact absurd hblank (by decide)
        · exact absurd hblank (by decide)
  rcases hz with rfl | rfl | ⟨sign, hours, minutes, hsign, hhours, hminutes, hz⟩
  · rw [List.nil_append, optional, hnone]
    rfl
  · rfl
  · have hcolon : optional (char ':') (minutes ++ s) = minutes ++ s := by
      obtain ⟨c, rest, rfl, hc⟩ := hminutes.exists_cons
      have hnone : char ':' (c :: rest ++ s) = none := by
        rw [Option.eq_none_iff_forall_ne_some]
        intro r hr
        rw [(List.cons.inj (char_eq_some_iff.mp hr)).1] at hc
        exact absurd hc (by decide)
      rw [optional, hnone]
      rfl
    have hsome : zone (z ++ s) = some s := by
      rcases hz with rfl | rfl
      · rw [List.cons_append, zone_sign hsign, List.append_assoc, hhours.times_append, Option.bind_some, hcolon,
          hminutes.times_append]
      · rw [List.cons_append, zone_sign hsign, List.append_assoc, hhours.times_append, Option.bind_some]
        exact hminutes.times_append s
    rw [optional, hsome]
    rfl

theorem timestamp_append (ht : IsTimestamp t) (hs : Open s) : timestamp (t ++ s) = some s := by
  obtain ⟨a, f, z, ha, hf, hz, rfl⟩ := ht
  have hends {p : Char → Bool} (hblank : ∀ c, isBlank c = true → p c = false)
      (hz' : ∀ c ∈ ['Z', '+', '-'], p c = false) : Ends p (z ++ s) := by
    rcases hz with rfl | rfl | ⟨sign, h, m, hsign, -, -, rfl | rfl⟩
    · exact hs.ends hblank
    · exact ends_cons (hz' _ (by decide)) _
    · exact ends_cons (hz' _ (by rcases hsign with rfl | rfl <;> decide)) _
    · exact ends_cons (hz' _ (by rcases hsign with rfl | rfl <;> decide)) _
  have hdigit : Ends digit (z ++ s) :=
    hends (fun _ => digit_of_isBlank) (Text.forall_mem_of_all (by decide +kernel))
  have hpoint : Ends (· == '.') (z ++ s) := hends (fun c hc => by
    rw [beq_eq_false_iff_ne]
    rintro rfl
    exact absurd hc (by decide)) (Text.forall_mem_of_all (by decide))
  have hstamp : stamp (a ++ (f ++ (z ++ s))) = some (f ++ (z ++ s)) := stamp_eq_some_iff.mpr ⟨a, ha, rfl⟩
  have happend : a ++ (f ++ z) ++ s = a ++ (f ++ (z ++ s)) := by simp
  rw [happend, timestamp_eq, hstamp, Option.map_some, optional_fraction hf hdigit hpoint,
    optional_zone_of_open hz hs]

theorem address_append (ht : IsAddress t) (hs : Open s) : address (t ++ s) = some s :=
  address_eq_some_iff.mpr ⟨t, ht, hs.ends fun _ => isHexDigit_of_isBlank, rfl⟩

theorem duration_append {before : Option Char} (ht : IsSpan t) (hs : Open s) (hbefore : before.any isWord = false) :
    duration before (t ++ s) = some s :=
  duration_eq_some_iff.mpr ⟨t, ht, rfl, hbefore, Text.any_isWord_of_blank hs⟩

theorem longNumber_append (ht : IsLongNumber t) (hs : Open s) : longNumber (t ++ s) = some s :=
  longNumber_eq_some_iff.mpr ⟨t, ht, hs.ends fun _ => digit_of_isBlank, rfl⟩

/-! ## Tokens that are passed over -/

/-- What has no white space does not reach past a token. -/
theorem prefix_of_open {a x b : List Char} (ha : ∀ c ∈ a, isBlank c = false) (hs : Open s) (h : a ++ x = b ++ s) :
    a <+: b := by
  induction a generalizing b with
  | nil => exact List.nil_prefix
  | cons c a ih =>
    obtain ⟨hc, ha⟩ := List.forall_mem_cons.mp ha
    cases b with
    | nil =>
      have hs : Open (c :: (a ++ x)) := by
        rw [show c :: (a ++ x) = s from h]
        exact hs
      rw [hs c rfl] at hc
      cases hc
    | cons d b =>
      obtain ⟨rfl, hrest⟩ := List.cons.inj h
      exact List.cons_prefix_cons.mpr ⟨rfl, ih ha hrest⟩

theorem replaceFrom_pass {before : Option Char} (h : ∀ a b, t = a ++ b → b ≠ [] → ∀ before,
    k.pattern before (b ++ s) = none) :
    k.replaceFrom before 0 (t ++ s) = t ++ k.replaceFrom (t.getLast?.or before) 0 s := by
  induction t generalizing before with
  | nil => rfl
  | cons c t ih =>
    have hnone := h [] (c :: t) rfl (List.cons_ne_nil c t) before
    rw [List.cons_append] at hnone ⊢
    rw [Kind.replaceFrom_keep hnone, ih fun a b he hne => h (c :: a) b (by rw [he]; rfl) hne, getLast?_cons_or]
    rfl

theorem timestamp_pass {sort : Token} (hsort : sort ≠ .timestamp) (ht : sort.Covers t) (hs : Open s) {a b : List Char}
    (hsplit : t = a ++ b) : timestamp (b ++ s) = none := by
  rw [Option.eq_none_iff_forall_ne_some]
  intro r hr
  obtain ⟨_, f, z, ⟨d, mark, c, hd, -, -, rfl⟩, -, -, he⟩ := timestamp_cases hr
  have hfront : d <+: b := prefix_of_open hd.not_isBlank hs (by rw [he, List.append_assoc])
  refine hyphen_not_mem hsort ht ?_
  rw [hsplit]
  exact List.mem_append_right a (hfront.subset hd.hyphen_mem)

theorem address_pass {sort : Token} (hsort : sort = .duration ∨ sort = .number) (ht : sort.Covers t) (hs : Open s)
    {a b : List Char} (hsplit : t = a ++ b) : address (b ++ s) = none := by
  rw [Option.eq_none_iff_forall_ne_some]
  intro r hr
  obtain ⟨_, ⟨digits, -, -, rfl⟩, -, he⟩ := address_eq_some_iff.mp hr
  have hsolid : ∀ c ∈ ['0', 'x'], isBlank c = false := Text.forall_mem_of_all (by decide)
  have hfront : ['0', 'x'] <+: b := prefix_of_open hsolid hs (x := digits ++ r) (by rw [he]; rfl)
  refine x_not_mem hsort ht ?_
  rw [hsplit]
  exact List.mem_append_right a (hfront.subset (by decide))

/-! ## One sort after the other -/

theorem open_replaceFrom (hk : k.Marks) (hs : Open s) (before : Option Char) :
    Open (k.replaceFrom before 0 s) := by
  cases s with
  | nil => exact hs
  | cons c s =>
    have hc : isBlank c = true := hs c rfl
    rw [Kind.replaceFrom_keep (hk.pattern_cons (digit_of_isBlank hc) before s)]
    intro d hd
    obtain rfl := Option.some.inj hd
    exact hc

/-- What stands before matters to a digit only. -/
theorem replaceFrom_of_ends (hk : k.Marks) (hs : Ends digit s) (before : Option Char) :
    k.replaceFrom before 0 s = k.replace s := by
  cases s with
  | nil => rfl
  | cons c s =>
    rw [Kind.replace, Kind.replaceFrom_keep (hk.pattern_cons hs.head before s),
      Kind.replaceFrom_keep (hk.pattern_cons hs.head none s)]

theorem Open.ends_digit (hs : Open s) : Ends digit s := hs.ends fun _ => digit_of_isBlank

/-- A text without digits in front of two refilled ones joins their first piece. -/
theorem Refilled.prepend (h : Refilled sorts s s') (hs : Ends digit s) (hq : ∀ c ∈ q, digit c = false) :
    Refilled sorts (q ++ s) (q ++ s') := by
  cases h with
  | piece hp => exact .piece (List.forall_mem_append.mpr ⟨hq, hp⟩)
  | @gap p t u s s' sort hsort hp hbefore ht hu hafter rest =>
    have hassoc (x y : List Char) : q ++ (p ++ (x ++ y)) = q ++ p ++ (x ++ y) := (List.append_assoc q p _).symm
    rw [hassoc, hassoc]
    refine .gap sort hsort (List.forall_mem_append.mpr ⟨hq, hp⟩) ?_ ht hu hafter rest
    cases p with
    | nil =>
      obtain ⟨c, more, rfl, hc⟩ := ht.exists_cons
      rw [hs.head] at hc
      cases hc
    | cons c p =>
      intro d hd
      rw [List.getLast?_append_of_ne_nil _ (List.cons_ne_nil c p)] at hd
      exact hbefore d hd

theorem Refilled.open (h : Refilled sorts s s') (hs : Open s) : Open s' := by
  cases h with
  | piece hp => exact hs
  | @gap p t u s s' sort hsort hp hbefore ht hu hafter rest =>
    cases p with
    | nil =>
      obtain ⟨c, more, rfl, hc⟩ := ht.exists_cons
      have hblank : isBlank c = true := hs c rfl
      rw [digit_of_isBlank hblank] at hc
      cases hc
    | cons c p => exact hs

theorem replace_own (hk : k.Marks) (hp : ∀ c ∈ p, digit c = false) (ht : t ≠ []) (hs : Ends digit s)
    (hown : k.pattern p.getLast? (t ++ s) = some s) :
    k.replace (p ++ (t ++ s)) = p ++ k.token ++ k.replace s := by
  rw [Kind.replace, hk.replaceFrom_append hp, Option.or_none, Kind.replaceFrom_swap ht hown,
    replaceFrom_of_ends hk hs, List.append_assoc]

theorem replace_other (hk : k.Marks) (hp : ∀ c ∈ p, digit c = false) (hs : Open s)
    (hpass : ∀ a b, t = a ++ b → b ≠ [] → ∀ before, k.pattern before (b ++ s) = none) :
    k.replace (p ++ (t ++ s)) = p ++ (t ++ k.replace s) := by
  rw [Kind.replace, hk.replaceFrom_append hp, replaceFrom_pass hpass, replaceFrom_of_ends hk hs.ends_digit]

theorem ends_digit_replace (hk : k.Marks) (hs : Ends digit s) : Ends digit (k.replace s) := by
  cases s with
  | nil => exact hs
  | cons c s =>
    rw [Kind.replace, Kind.replaceFrom_keep (hk.pattern_cons hs.head none s)]
    exact ends_cons hs.head _

/-- Where both texts have a match after the same piece, its token becomes a part of the piece. -/
theorem Refilled.own {u : List Char} (hk : k.Marks) (hp : ∀ c ∈ p, digit c = false) (ht : t ≠ []) (hu : u ≠ [])
    (hs : Ends digit s) (hs' : Ends digit s') (hown : k.pattern p.getLast? (t ++ s) = some s)
    (hown' : k.pattern p.getLast? (u ++ s') = some s') (rest : Refilled sorts (k.replace s) (k.replace s')) :
    Refilled sorts (k.replace (p ++ (t ++ s))) (k.replace (p ++ (u ++ s'))) := by
  have htoken : ∀ c ∈ p ++ k.token, digit c = false :=
    List.forall_mem_append.mpr ⟨hp, fun c hc => (hk.mem_token hc).1⟩
  rw [replace_own hk hp ht hs hown, replace_own hk hp hu hs' hown']
  exact rest.prepend (ends_digit_replace hk hs) htoken

/-- One kind of noise is replaced: its tokens become parts of the pieces, and the others are passed over. -/
theorem Refilled.replace (hk : k.Marks) (sort : Token)
    (hown : ∀ t s before, sort.Covers t → Open s → k.pattern before (t ++ s) = some s)
    (hpass : ∀ other ∈ sorts, ∀ t s, other.Covers t → Open s → ∀ a b, t = a ++ b → b ≠ [] → ∀ before,
      k.pattern before (b ++ s) = none)
    (h : Refilled (sort :: sorts) s s') : Refilled sorts (k.replace s) (k.replace s') := by
  induction h with
  | @piece p hp =>
    rw [Kind.replace, hk.replaceFrom_eq_self hp]
    exact .piece hp
  | @gap p t u s s' other hsort hp hbefore ht hu hafter rest ih =>
    have hafter' := rest.open hafter
    by_cases hother : other = sort
    · subst hother
      exact ih.own hk hp ht.ne_nil hu.ne_nil hafter.ends_digit hafter'.ends_digit (hown t s _ ht hafter)
        (hown u s' _ hu hafter')
    · have hmem : other ∈ sorts := (List.mem_cons.mp hsort).resolve_left hother
      rw [replace_other hk hp hafter (hpass other hmem t s ht hafter),
        replace_other hk hp hafter' (hpass other hmem u s' hu hafter')]
      exact .gap other hmem hp hbefore ht hu (open_replaceFrom hk hafter none) ih

/-! ## Numbers and their units -/

theorem Refilled.symm (h : Refilled sorts s s') : Refilled sorts s' s := by
  induction h with
  | piece hp => exact .piece hp
  | gap sort hsort hp hbefore ht hu hafter rest ih =>
    exact .gap sort hsort hp hbefore hu ht (rest.open hafter) ih

/-- The two texts begin alike up to the first token. -/
theorem Refilled.drop {c : Char} (h : Refilled sorts (c :: s) s') (hc : digit c = false) :
    ∃ t, s' = c :: t ∧ Refilled sorts s t := by
  generalize hcs : c :: s = x at h
  cases h with
  | piece hp =>
    subst hcs
    exact ⟨s, rfl, .piece (List.forall_mem_cons.mp hp).2⟩
  | @gap p t u x x' sort hsort hp hbefore ht hu hafter rest =>
    cases p with
    | nil =>
      obtain ⟨d, more, rfl, hd⟩ := ht.exists_cons
      rw [(List.cons.inj hcs).1, hd] at hc
      cases hc
    | cons d p =>
      obtain ⟨rfl, rfl⟩ := List.cons.inj hcs
      refine ⟨p ++ (u ++ x'), rfl, .gap sort hsort (List.forall_mem_cons.mp hp).2 ?_ ht hu hafter rest⟩
      cases p with
      | nil => exact fun _ hd => nomatch hd
      | cons e p => rwa [List.getLast?_cons_cons] at hbefore

theorem Refilled.drop_append {a : List Char} (h : Refilled sorts (a ++ s) s') (ha : ∀ c ∈ a, digit c = false) :
    ∃ t, s' = a ++ t ∧ Refilled sorts s t := by
  induction a generalizing s' with
  | nil => exact ⟨s', rfl, h⟩
  | cons c a ih =>
    obtain ⟨hc, ha⟩ := List.forall_mem_cons.mp ha
    obtain ⟨t, rfl, ht⟩ := h.drop hc
    obtain ⟨u, rfl, hu⟩ := ih ht ha
    exact ⟨u, rfl, hu⟩

theorem Refilled.head?_eq (h : Refilled sorts s s') (hs : Ends digit s) : s'.head? = s.head? := by
  cases s with
  | nil =>
    generalize hnil : [] = x at h
    cases h with
    | piece => rw [← hnil]
    | @gap p t u x x' sort hsort hp hbefore ht hu hafter rest =>
      obtain ⟨c, more, rfl, -⟩ := ht.exists_cons
      have hlength := congrArg List.length hnil
      simp at hlength
  | cons c s =>
    obtain ⟨t, rfl, -⟩ := h.drop hs.head
    rfl

theorem append_inj_of_ends {a b x y : List Char} {q : Char → Bool} (ha : ∀ c ∈ a, q c = true) (hx : Ends q x)
    (hb : ∀ c ∈ b, q c = true) (hy : Ends q y) (h : a ++ x = b ++ y) : a = b ∧ x = y := by
  have hrest : x = y := by
    have hdrop := congrArg (List.dropWhile q) h
    rwa [List.dropWhile_append_of_pos ha, List.dropWhile_append_of_pos hb, dropWhile_of_ends hx,
      dropWhile_of_ends hy] at hdrop
  subst hrest
  exact ⟨List.append_cancel_right h, rfl⟩

/-- A number is the first half of a duration when a unit follows it, and whether one does is the same in both texts. -/
theorem Refilled.span {before : Option Char} {u : List Char} (h : Refilled sorts s s') (hs : Open s)
    (ht : IsLongNumber t) (hu : IsLongNumber u) (hd : duration before (t ++ s) = some r) :
    ∃ a r', s = a ++ r ∧ s' = a ++ r' ∧ duration before (u ++ s') = some r' ∧ Refilled sorts r r' ∧ Ends digit r := by
  obtain ⟨_, ⟨digits, f, gap, unit, hne, hall, hf, hgap, hunit, rfl⟩, he, hbefore, hend⟩ := duration_eq_some_iff.mp hd
  have hends : Ends digit (f ++ (gap ++ (unit ++ r))) := hf.ends_digit (ends_gap_unit hgap hunit r).1
  obtain ⟨rfl, hsplit⟩ := append_inj_of_ends ht.2 hs.ends_digit hall hends (he.trans (by simp))
  -- White space follows the number, so there is no fraction.
  obtain rfl : f = [] := by
    rcases hf with rfl | ⟨d, -, -, rfl⟩
    · rfl
    · have hpoint : isBlank '.' = true := hs '.' (by rw [hsplit]; rfl)
      exact absurd hpoint (by decide)
  have hnone : ∀ c ∈ gap ++ unit, digit c = false := by
    refine List.forall_mem_append.mpr ⟨?_, fun c hc => (hunit.not_digit hc).1⟩
    rcases hgap with rfl | ⟨b, hb, rfl⟩
    · exact List.forall_mem_nil _
    · exact List.forall_mem_singleton.mpr (digit_of_isBlank hb)
  have hsplit : s = gap ++ unit ++ r := hsplit.trans (by simp)
  obtain ⟨r', rfl, hr⟩ := (hsplit ▸ h).drop_append hnone
  have hdigit := ends_digit_of_word hend
  refine ⟨gap ++ unit, r', hsplit, rfl, ?_, hr, hdigit⟩
  refine duration_eq_some_iff.mpr ⟨u ++ ([] ++ (gap ++ unit)), ?_, by simp, hbefore, ?_⟩
  · exact ⟨u, [], gap, unit, ne_nil_of_exists_cons hu.exists_cons, hu.2, Or.inl rfl, hgap, hunit, rfl⟩
  · rw [hr.head?_eq hdigit]
    exact hend

/-- Within a number no duration begins. -/
theorem durations_pass_digits {d : Char} (hd : digit d = true) (ht : ∀ c ∈ t, digit c = true) :
    durations.replaceFrom (some d) 0 (t ++ s) = t ++ durations.replaceFrom (t.getLast?.or (some d)) 0 s := by
  induction t generalizing d with
  | nil => rfl
  | cons c t ih =>
    obtain ⟨hc, ht⟩ := List.forall_mem_cons.mp ht
    have hnone : durations.pattern (some d) (c :: (t ++ s)) = none := by
      rw [Option.eq_none_iff_forall_ne_some]
      intro r hr
      obtain ⟨a, -, -, hbefore, -⟩ := duration_eq_some_iff.mp hr
      have hword : isWord d = false := hbefore
      rw [isWord_of_digit hd] at hword
      cases hword
    rw [List.cons_append, Kind.replaceFrom_keep hnone, ih hc ht, getLast?_cons_or]
    rfl

theorem replace_number (hp : ∀ c ∈ p, digit c = false) (ht : IsLongNumber t) (hs : Open s)
    (hnone : duration p.getLast? (t ++ s) = none) :
    durations.replace (p ++ (t ++ s)) = p ++ (t ++ durations.replace s) := by
  obtain ⟨c, rest, rfl, hc⟩ := ht.exists_cons
  rw [Kind.replace, marks_durations.replaceFrom_append hp, Option.or_none, List.cons_append,
    Kind.replaceFrom_keep hnone, durations_pass_digits hc (List.forall_mem_cons.mp ht.2).2,
    replaceFrom_of_ends marks_durations hs.ends_digit]
  rfl

/-- Durations are replaced in both texts alike, and so are the numbers that have a unit after them. -/
theorem Refilled.durations (h : Refilled [.duration, .number] s s') :
    Refilled [.number] (durations.replace s) (durations.replace s') := by
  induction hn : s.length using Nat.strong_induction_on generalizing s s' with
  | _ n ih =>
    subst hn
    cases h with
    | piece hp =>
      rw [Kind.replace, marks_durations.replaceFrom_eq_self hp]
      exact .piece hp
    | @gap p t u s s' sort hsort hp hbefore ht hu hafter rest =>
      have hafter' := rest.open hafter
      have hlength : s.length < (p ++ (t ++ s)).length := by
        obtain ⟨c, more, rfl, -⟩ := ht.exists_cons
        simp only [List.length_append, List.length_cons]
        omega
      have hword : p.getLast?.any isWord = false := Text.any_isWord_of_blank hbefore
      rcases List.mem_pair.mp hsort with rfl | rfl
      · exact (ih s.length hlength rest rfl).own marks_durations hp ht.ne_nil hu.ne_nil hafter.ends_digit
          hafter'.ends_digit (duration_append ht hafter hword) (duration_append hu hafter' hword)
      · cases hspan : duration p.getLast? (t ++ s) with
        | none =>
          have hspan' : duration p.getLast? (u ++ s') = none := by
            rw [Option.eq_none_iff_forall_ne_some]
            intro r hr
            obtain ⟨_, _, -, -, hboth, -⟩ := rest.symm.span hafter' hu ht hr
            rw [hspan] at hboth
            cases hboth
          rw [replace_number hp ht hafter hspan, replace_number hp hu hafter' hspan']
          exact .gap .number List.mem_cons_self hp hbefore ht hu (open_replaceFrom marks_durations hafter none)
            (ih s.length hlength rest rfl)
        | some r =>
          obtain ⟨a, r', rfl, rfl, hspan', hr, hdigit⟩ := rest.span hafter ht hu hspan
          have hdigit' : Ends digit r' := fun c hc => hdigit c (by rwa [hr.head?_eq hdigit] at hc)
          have hlength : r.length < (p ++ (t ++ (a ++ r))).length := by
            simp only [List.length_append] at hlength ⊢
            omega
          rw [← List.append_assoc] at hspan hspan'
          rw [← List.append_assoc t, ← List.append_assoc u]
          exact (ih r.length hlength hr rfl).own marks_durations hp (List.append_ne_nil_of_left_ne_nil ht.ne_nil a)
            (List.append_ne_nil_of_left_ne_nil hu.ne_nil a) hdigit hdigit' hspan hspan'

theorem Refilled.eq (h : Refilled [] s s') : s = s' := by
  cases h with
  | piece => rfl
  | gap sort hsort => cases hsort

/-- Only the noise differs, and in the end it is gone. -/
theorem mark_refilled (h : Refilled [.timestamp, .address, .duration, .number] s s') : mark s = mark s' := by
  have hstamps : Refilled [.address, .duration, .number] (stamps.replace s) (stamps.replace s') := by
    refine h.replace marks_stamps .timestamp (fun t s _ ht hs => timestamp_append ht hs) ?_
    intro other hother t s ht hs a b hsplit _ _
    refine timestamp_pass ?_ ht hs hsplit
    rintro rfl
    exact absurd hother (by decide)
  have haddresses := hstamps.replace marks_addresses .address (fun t s _ ht hs => address_append ht hs) ?_
  · have hnumbers := haddresses.durations.replace marks_longNumbers .number
      (fun t s _ ht hs => longNumber_append ht hs) fun _ hother => absurd hother List.not_mem_nil
    exact hnumbers.eq
  · intro other hother t s ht hs a b hsplit _ _
    refine address_pass ?_ ht hs hsplit
    rcases List.mem_pair.mp hother with rfl | rfl
    · exact Or.inl rfl
    · exact Or.inr rfl

/-- The texts of two runs that fail alike: whatever the noise is in the one and in the other, they are normalized to the
same text and have the same signature. -/
theorem signature_of_refilled {text other : String}
    (h : Refilled [.timestamp, .address, .duration, .number] text.toList other.toList) :
    normalize text = normalize other ∧ failureSignature text = failureSignature other := by
  have hchars : normalizeChars text.toList = normalizeChars other.toList := by
    rw [normalizeChars_eq, normalizeChars_eq, mark_refilled h]
  exact ⟨congrArg String.ofList hchars,
    congrArg (fun s => Text.hexText (Digest.sha256 (Text.encode s))) hchars⟩

/-- A number that a unit follows in the piece after it, and an address at the end. -/
theorem signature_of_refilled_number :
    failureSignature "12345 s in 0xff" = failureSignature "987654321 s in 0xdeadbeef" := by
  have h : Refilled [.timestamp, .address, .duration, .number] "12345 s in 0xff".toList
      "987654321 s in 0xdeadbeef".toList := by
    refine @Refilled.gap _ [] "12345".toList "987654321".toList " s in 0xff".toList " s in 0xdeadbeef".toList .number
      (by decide) (List.forall_mem_nil _) (fun _ h => nomatch h) ⟨by decide, Text.forall_mem_of_all (by decide)⟩
      ⟨by decide, Text.forall_mem_of_all (by decide)⟩ (by decide) ?_
    refine @Refilled.gap _ " s in ".toList "0xff".toList "0xdeadbeef".toList [] [] .address (by decide)
      (Text.forall_mem_of_all (by decide)) ?_ ⟨"ff".toList, by decide, Text.forall_mem_of_all (by decide), by decide⟩
      ⟨"deadbeef".toList, by decide, Text.forall_mem_of_all (by decide), by decide⟩ (by decide)
      (.piece (List.forall_mem_nil _))
    rintro c hc
    obtain rfl := Option.some.inj hc
    decide
  exact (signature_of_refilled h).2

end Overseer.Noise
