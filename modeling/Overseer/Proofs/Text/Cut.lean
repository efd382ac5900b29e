import Overseer.Text.Cut

/-! # What is left of a text that is cut

Never more bytes than the limit, the mark included.
-/

namespace Overseer.Text

theorem byteLength_cons (c : Char) (s : List Char) : byteLength (c :: s) = c.utf8Size + byteLength s := rfl

theorem byteLength_append (s t : List Char) : byteLength (s ++ t) = byteLength s + byteLength t := by
  induction s with
  | nil => exact (Nat.zero_add _).symm
  | cons c s ih => rw [List.cons_append, byteLength_cons, byteLength_cons, ih, Nat.add_assoc]

theorem byteLength_le_of_prefix {s t : List Char} (h : t <+: s) : byteLength t ≤ byteLength s := by
  obtain ⟨rest, rfl⟩ := h
  rw [byteLength_append]
  exact Nat.le_add_right _ _

theorem byteLength_headWithin (limit : Nat) (s : List Char) : byteLength (headWithin limit s) ≤ limit := by
  induction s generalizing limit with
  | nil => exact Nat.zero_le _
  | cons c s ih =>
    rw [headWithin]
    split
    · have hrest := ih (limit - c.utf8Size)
      rw [byteLength_cons]
      omega
    · exact Nat.zero_le _

theorem headWithin_prefix (limit : Nat) (s : List Char) : headWithin limit s <+: s := by
  induction s generalizing limit with
  | nil => exact List.prefix_refl _
  | cons c s ih =>
    rw [headWithin]
    split
    · exact (List.prefix_cons_inj c).mpr (ih _)
    · exact List.nil_prefix

/-- No longer prefix is within the limit. -/
theorem prefix_headWithin {limit : Nat} {s t : List Char} (ht : t <+: s) (hlimit : byteLength t ≤ limit) :
    t <+: headWithin limit s := by
  induction t generalizing limit s with
  | nil => exact List.nil_prefix
  | cons c t ih =>
    obtain ⟨rest, rfl⟩ := ht
    rw [byteLength_cons] at hlimit
    rw [List.cons_append, headWithin, if_pos (by omega)]
    exact (List.prefix_cons_inj c).mpr (ih (List.prefix_append t rest) (by omega))

theorem eq_nil_of_byteLength {s : List Char} (h : byteLength s = 0) : s = [] := by
  cases s with
  | nil => rfl
  | cons c s =>
    have hpos := c.utf8Size_pos
    rw [byteLength_cons] at h
    omega

theorem byteLength_abridge (mark : List Char) (limit : Nat) (s : List Char) :
    byteLength (abridge mark limit s) ≤ limit := by
  rw [abridge]
  split
  · assumption
  · have hhead := byteLength_headWithin (limit - byteLength mark) s
    rw [byteLength_append]
    split
    · omega
    · have hnil : byteLength [] = 0 := rfl
      omega

end Overseer.Text
