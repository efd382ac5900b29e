import Mathlib
import Overseer.Healing.Prompt
import Overseer.Text.Offset
import Overseer.Proofs.Text.Cut

/-! # Cuts at offsets are cuts between characters

The offsets at which a text can be cut are the lengths of its prefixes (`betweenCharacters_encode`), since only the first
byte of a character is one that can start a character. So the walk back ends with the longest prefix that is short enough
and the walk forward with the shortest prefix that is long enough, and neither ever leaves the text.
-/

namespace Overseer.Text

variable {s t : List Char} {bytes : List UInt8} {offset limit : ℕ}

theorem encode_cons (c : Char) (s : List Char) : encode (c :: s) = String.utf8EncodeChar c ++ encode s := rfl

theorem encode_append (s t : List Char) : encode (s ++ t) = encode s ++ encode t := List.flatMap_append

theorem length_encode (s : List Char) : (encode s).length = byteLength s := by
  induction s with
  | nil => rfl
  | cons c s ih => rw [encode_cons, List.length_append, String.length_utf8EncodeChar, ih, byteLength_cons]

/-! ## Bytes that start a character -/

theorem startsCharacter_ofNat {n : ℕ} (h : n < 256) :
    startsCharacter (UInt8.ofNat n) = (decide (n < 0x80) || decide (0xc0 ≤ n)) := by
  have hbyte : (UInt8.ofNat n).toNat = n := UInt8.toNat_ofNat_of_lt' h
  rw [startsCharacter, hbyte]

theorem startsCharacter_first {n : ℕ} (h : n < 256) (hfirst : n < 0x80 ∨ 0xc0 ≤ n) :
    startsCharacter (UInt8.ofNat n) = true := by
  rw [startsCharacter_ofNat h, Bool.or_eq_true, decide_eq_true_iff, decide_eq_true_iff]
  exact hfirst

theorem startsCharacter_later {n : ℕ} (hlow : 0x80 ≤ n) (hhigh : n < 0xc0) :
    startsCharacter (UInt8.ofNat n) = false := by
  rw [startsCharacter_ofNat (by omega), Bool.or_eq_false_iff, decide_eq_false_iff_not, decide_eq_false_iff_not]
  omega

/-- Of the bytes of a character the first one starts it, and no other one can start a character. -/
theorem exists_bytes (c : Char) : ∃ first later, String.utf8EncodeChar c = first :: later ∧
    startsCharacter first = true ∧ ∀ b ∈ later, startsCharacter b = false := by
  obtain ⟨v, hv⟩ : ∃ v, c.val.toNat = v := ⟨_, rfl⟩
  have hvalid : v < 0xd800 ∨ 0xdfff < v ∧ v < 0x110000 := hv ▸ c.valid
  have hlater : ∀ n, startsCharacter (UInt8.ofNat (n % 64 + 128)) = false := by
    intro n
    apply startsCharacter_later <;> omega
  unfold String.utf8EncodeChar
  rw [hv]
  dsimp only
  split
  · exact ⟨_, [], rfl, startsCharacter_first (by omega) (by omega), List.forall_mem_nil _⟩
  · split
    · refine ⟨_, _, rfl, startsCharacter_first (by omega) (by omega), ?_⟩
      exact List.forall_mem_cons.mpr ⟨hlater _, List.forall_mem_nil _⟩
    · split
      · refine ⟨_, _, rfl, startsCharacter_first (by omega) (by omega), ?_⟩
        exact List.forall_mem_cons.mpr ⟨hlater _, List.forall_mem_cons.mpr ⟨hlater _, List.forall_mem_nil _⟩⟩
      · refine ⟨_, _, rfl, startsCharacter_first (by omega) (by omega), ?_⟩
        exact List.forall_mem_cons.mpr ⟨hlater _, List.forall_mem_cons.mpr ⟨hlater _,
          List.forall_mem_cons.mpr ⟨hlater _, List.forall_mem_nil _⟩⟩⟩

/-! ## Places for a cut -/

theorem betweenCharacters_past (h : bytes.length < offset) : betweenCharacters bytes offset = false := by
  have hpos : offset ≠ 0 := by omega
  have hne : offset ≠ bytes.length := by omega
  unfold betweenCharacters
  rw [List.getElem?_eq_none (by omega)]
  simp [hpos, hne]

/-- What comes before a character that starts does not matter. -/
theorem betweenCharacters_append (front : List UInt8) (s : List Char) (offset : ℕ) :
    betweenCharacters (front ++ encode s) (front.length + offset) = betweenCharacters (encode s) offset := by
  have hget : (front ++ encode s)[front.length + offset]? = (encode s)[offset]? := by
    rw [List.getElem?_append_right (by omega), Nat.add_sub_cancel_left]
  unfold betweenCharacters
  rw [hget]
  cases offset with
  | zero =>
    cases s with
    | nil => simp [encode]
    | cons c s =>
      obtain ⟨first, later, hbytes, hfirst, -⟩ := exists_bytes c
      rw [encode_cons, hbytes, Nat.add_zero]
      simp [hfirst]
  | succ offset =>
    have hlength : (front.length + (offset + 1) == (front ++ encode s).length) = (offset + 1 == (encode s).length) := by
      rw [Bool.eq_iff_iff, beq_iff_eq, beq_iff_eq, List.length_append]
      omega
    cases (encode s)[offset + 1]? with
    | none => exact hlength
    | some b => rfl

/-- No cut is possible inside the first character. -/
theorem betweenCharacters_inside {c : Char} (s : List Char) (hpos : 0 < offset) (h : offset < c.utf8Size) :
    betweenCharacters (encode (c :: s)) offset = false := by
  obtain ⟨first, later, hbytes, -, hlater⟩ := exists_bytes c
  obtain ⟨before, rfl⟩ : ∃ before, offset = before + 1 := ⟨offset - 1, by omega⟩
  have hsize : before < later.length := by
    have hlength := String.length_utf8EncodeChar c
    rw [hbytes, List.length_cons] at hlength
    omega
  have hget : (encode (c :: s))[before + 1]? = some later[before] := by
    rw [encode_cons, hbytes, List.cons_append, List.getElem?_cons_succ, List.getElem?_append_left hsize,
      List.getElem?_eq_getElem hsize]
  unfold betweenCharacters
  rw [hget]
  exact hlater _ (List.getElem_mem hsize)

/-- A text can be cut where one of its prefixes ends, and nowhere else. -/
theorem betweenCharacters_encode : betweenCharacters (encode s) offset = true ↔ ∃ t, t <+: s ∧ byteLength t = offset := by
  constructor
  · intro h
    induction s generalizing offset with
    | nil =>
      refine ⟨[], List.prefix_refl [], ?_⟩
      by_contra hne
      rw [betweenCharacters_past (Nat.pos_of_ne_zero (Ne.symm hne))] at h
      cases h
    | cons c s ih =>
      by_cases hzero : offset = 0
      · exact ⟨[], List.nil_prefix, hzero.symm⟩
      · have hsize : c.utf8Size ≤ offset := by
          by_contra hlt
          rw [betweenCharacters_inside s (by omega) (by omega)] at h
          cases h
        obtain ⟨rest, rfl⟩ := Nat.exists_eq_add_of_le hsize
        rw [encode_cons, ← String.length_utf8EncodeChar c, betweenCharacters_append] at h
        obtain ⟨t, ht, hlength⟩ := ih h
        exact ⟨c :: t, (List.prefix_cons_inj c).mpr ht, by rw [byteLength_cons, hlength]⟩
  · rintro ⟨t, ⟨u, rfl⟩, rfl⟩
    rw [encode_append, ← length_encode t, ← Nat.add_zero (encode t).length, betweenCharacters_append]
    rfl

theorem splitAt?_encode {front back : List Char} (h : s = front ++ back) :
    splitAt? (encode s) (byteLength front) = some (encode front, encode back) := by
  subst h
  have hcut : betweenCharacters (encode (front ++ back)) (byteLength front) = true :=
    betweenCharacters_encode.mpr ⟨front, List.prefix_append front back, rfl⟩
  unfold splitAt?
  rw [if_pos hcut, encode_append, ← length_encode, List.take_left, List.drop_left]

/-! ## The walk back -/

/-- The walk ends at the last place for a cut that is not past the offset. -/
theorem cutBefore?_eq {stop : ℕ} (hcut : betweenCharacters bytes stop = true) (hle : stop ≤ offset)
    (hlast : ∀ k, stop < k → k ≤ offset → betweenCharacters bytes k = false) : cutBefore? bytes offset = some stop := by
  induction offset with
  | zero =>
    obtain rfl : stop = 0 := by omega
    rw [cutBefore?, if_pos hcut]
  | succ offset ih =>
    rw [cutBefore?]
    by_cases heq : stop = offset + 1
    · rw [← heq, if_pos hcut]
    · rw [hlast (offset + 1) (by omega) (Nat.le_refl _), if_neg (by decide)]
      apply ih
      · omega
      · intro k hk hle
        exact hlast k hk (by omega)

theorem cutBefore?_encode (s : List Char) (limit : ℕ) :
    cutBefore? (encode s) limit = some (byteLength (headWithin limit s)) := by
  apply cutBefore?_eq
  · exact betweenCharacters_encode.mpr ⟨_, headWithin_prefix limit s, rfl⟩
  · exact byteLength_headWithin limit s
  · intro k hlt hle
    rw [← Bool.not_eq_true, betweenCharacters_encode]
    rintro ⟨t, ht, rfl⟩
    have hshort := byteLength_le_of_prefix (prefix_headWithin ht hle)
    omega

/-! ## The walk forward -/

/-- The walk ends at the first place for a cut that is not before the offset. -/
theorem cutAfter?_eq {start : ℕ} (hcut : betweenCharacters bytes start = true) (hle : offset ≤ start)
    (hfirst : ∀ k, offset ≤ k → k < start → betweenCharacters bytes k = false) :
    cutAfter? bytes offset = some start := by
  have hinside : start ≤ bytes.length := by
    by_contra hlt
    rw [betweenCharacters_past (by omega)] at hcut
    cases hcut
  obtain ⟨steps, rfl⟩ := Nat.exists_eq_add_of_le hle
  induction steps generalizing offset with
  | zero =>
    rw [Nat.add_zero] at hcut ⊢
    rw [cutAfter?, if_pos hcut]
  | succ steps ih =>
    rw [cutAfter?, hfirst offset (Nat.le_refl _) (by omega), if_neg (by decide), if_pos (by omega)]
    have hsum : offset + (steps + 1) = offset + 1 + steps := by omega
    rw [hsum] at hcut hinside hfirst ⊢
    apply ih hcut (by omega) _ hinside
    intro k hk hlt
    exact hfirst k (by omega) hlt

/-- What is dropped is the shortest prefix that is long enough. -/
theorem exists_dropAtLeast {count : ℕ} (h : count ≤ byteLength s) :
    ∃ front, s = front ++ dropAtLeast count s ∧ count ≤ byteLength front ∧
      ∀ t, t <+: s → count ≤ byteLength t → front <+: t := by
  induction s generalizing count with
  | nil => exact ⟨[], rfl, h, fun _ _ _ => List.nil_prefix⟩
  | cons c s ih =>
    rw [dropAtLeast]
    by_cases hzero : count = 0
    · rw [if_pos hzero]
      exact ⟨[], rfl, hzero.le, fun _ _ _ => List.nil_prefix⟩
    · rw [byteLength_cons] at h
      obtain ⟨front, hsplit, henough, hleast⟩ := @ih (count - c.utf8Size) (by omega)
      rw [if_neg hzero]
      refine ⟨c :: front, congrArg (c :: ·) hsplit, by rw [byteLength_cons]; omega, ?_⟩
      intro t ht hcount
      cases t with
      | nil => exact absurd (Nat.le_zero.mp hcount) hzero
      | cons d t =>
        obtain ⟨rfl, hrest⟩ := List.cons_prefix_cons.mp ht
        rw [byteLength_cons] at hcount
        exact (List.prefix_cons_inj d).mpr (hleast t hrest (by omega))

theorem exists_cutAfter? {count : ℕ} (h : count ≤ byteLength s) :
    ∃ front, s = front ++ dropAtLeast count s ∧ cutAfter? (encode s) count = some (byteLength front) := by
  obtain ⟨front, hsplit, henough, hleast⟩ := exists_dropAtLeast h
  refine ⟨front, hsplit, ?_⟩
  apply cutAfter?_eq
  · exact betweenCharacters_encode.mpr ⟨front, ⟨_, hsplit.symm⟩, rfl⟩
  · exact henough
  · intro k hle hlt
    rw [← Bool.not_eq_true, betweenCharacters_encode]
    rintro ⟨t, ht, rfl⟩
    have hlong := byteLength_le_of_prefix (hleast t ht hle)
    omega

/-! ## What is cut off -/

/-- The end of a text, and no longer end of it is within the limit. -/
structure LongestSuffix (limit : ℕ) (s t : List Char) : Prop where
  back : t <:+ s
  fits : byteLength t ≤ limit
  longest : ∀ longer, longer <:+ s → byteLength longer ≤ limit → longer <:+ t

/-- The start of a text, and no longer start of it is within the limit. -/
structure LongestPrefix (limit : ℕ) (s t : List Char) : Prop where
  front : t <+: s
  fits : byteLength t ≤ limit
  longest : ∀ longer, longer <+: s → byteLength longer ≤ limit → longer <+: t

theorem longestPrefix_headWithin (limit : ℕ) (s : List Char) : LongestPrefix limit s (headWithin limit s) where
  front := headWithin_prefix limit s
  fits := byteLength_headWithin limit s
  longest _ hlonger hlimit := prefix_headWithin hlonger hlimit

theorem longestSuffix_tailWithin (limit : ℕ) (s : List Char) : LongestSuffix limit s (tailWithin limit s) := by
  obtain ⟨front, hsplit, henough, hleast⟩ := exists_dropAtLeast (Nat.sub_le (byteLength s) limit)
  have hlength : byteLength s = byteLength front + byteLength (tailWithin limit s) := by
    rw [← byteLength_append]
    exact congrArg byteLength hsplit
  refine ⟨⟨front, hsplit.symm⟩, by omega, ?_⟩
  rintro longer ⟨first, hfirst⟩ hlimit
  have hsum : byteLength s = byteLength first + byteLength longer := by rw [← hfirst, byteLength_append]
  obtain ⟨rest, rfl⟩ := hleast first ⟨longer, hfirst⟩ (by omega)
  refine ⟨rest, ?_⟩
  rw [List.append_assoc] at hfirst
  exact List.append_cancel_left (hfirst.trans hsplit)

theorem tailWithin_of_le (h : byteLength s ≤ limit) : tailWithin limit s = s := by
  have hzero : byteLength s - limit = 0 := by omega
  rw [tailWithin, hzero]
  cases s with
  | nil => rfl
  | cons c s => rfl

/-- The cut by offsets takes the end that the cut by characters takes. -/
theorem tailBytes?_encode (limit : ℕ) (s : List Char) :
    tailBytes? limit (encode s) = some (encode (tailWithin limit s)) := by
  unfold tailBytes?
  rw [length_encode]
  by_cases hfits : byteLength s ≤ limit
  · rw [if_pos hfits, tailWithin_of_le hfits]
  · obtain ⟨front, hsplit, hwalk⟩ := exists_cutAfter? (Nat.sub_le (byteLength s) limit)
    rw [if_neg hfits, hwalk, Option.bind_eq_bind, Option.bind_some, splitAt?_encode hsplit]
    rfl

theorem abridgeBytes?_encode (mark : List Char) (limit : ℕ) (s : List Char) :
    abridgeBytes? (encode mark) limit (encode s) = some (encode (abridge mark limit s)) := by
  unfold abridgeBytes?
  rw [length_encode, length_encode, abridge]
  by_cases hfits : byteLength s ≤ limit
  · rw [if_pos hfits, if_pos hfits]
  · obtain ⟨rest, hrest⟩ := headWithin_prefix (limit - byteLength mark) s
    rw [if_neg hfits, if_neg hfits, cutBefore?_encode, Option.bind_eq_bind, Option.bind_some,
      splitAt?_encode hrest.symm, Option.bind_eq_bind, Option.bind_some]
    dsimp only
    by_cases hroom : byteLength mark < limit
    · rw [if_pos hroom, if_pos hroom, encode_append]
    · rw [if_neg hroom, if_neg hroom, List.append_nil]

theorem byteLength_truncationMark : byteLength Prompt.truncationMark = 12 := by decide

/-- Both cuts find a place for themselves in every text. The end that is kept is the longest one within the limit; of the
start there is kept what leaves room for the mark, and the mark is there when there is room for more than it. -/
theorem cut_between_characters (limit : ℕ) (s : List Char) :
    tailBytes? limit (encode s) = some (encode (tailWithin limit s)) ∧
      abridgeBytes? (encode Prompt.truncationMark) limit (encode s) =
        some (encode (abridge Prompt.truncationMark limit s)) ∧
      (byteLength s ≤ limit → tailWithin limit s = s ∧ abridge Prompt.truncationMark limit s = s) ∧
      (limit < byteLength s → LongestSuffix limit s (tailWithin limit s) ∧
        byteLength (abridge Prompt.truncationMark limit s) ≤ limit ∧ byteLength Prompt.truncationMark = 12 ∧
        ∃ head, LongestPrefix (limit - 12) s head ∧ (limit < 12 → head = []) ∧
          abridge Prompt.truncationMark limit s = head ++ if 12 < limit then Prompt.truncationMark else []) := by
  refine ⟨tailBytes?_encode limit s, abridgeBytes?_encode _ limit s, ?_, ?_⟩
  · intro hfits
    exact ⟨tailWithin_of_le hfits, if_pos hfits⟩
  · intro hover
    refine ⟨longestSuffix_tailWithin limit s, byteLength_abridge _ limit s, byteLength_truncationMark,
      headWithin (limit - 12) s, longestPrefix_headWithin _ s, ?_, ?_⟩
    · intro hsmall
      have hzero : limit - 12 = 0 := by omega
      apply eq_nil_of_byteLength
      rw [← Nat.le_zero, ← hzero]
      exact byteLength_headWithin _ s
    · rw [abridge, if_neg (by omega), byteLength_truncationMark]

/-- Both cuts would fall into a character. -/
theorem cut_between_characters_of_accents :
    15 < byteLength "éé............".toList ∧
      tailBytes? 15 (encode "éé............".toList) = some (encode "é............".toList) ∧
      abridgeBytes? (encode Prompt.truncationMark) 15 (encode "éé............".toList) =
        some (encode "é\n[truncated]".toList) ∧
      LongestSuffix 15 "éé............".toList "é............".toList := by
  have hover : 15 < byteLength "éé............".toList := by decide
  obtain ⟨htail, hshort, -, hcut⟩ := cut_between_characters 15 "éé............".toList
  exact ⟨hover, htail, hshort, (hcut hover).1⟩

end Overseer.Text
