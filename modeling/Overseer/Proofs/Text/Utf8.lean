import Mathlib
import Overseer.Text.Utf8

/-! # Text is read back from its bytes

A character is written as one to four bytes. Its first byte tells how many follow and in which range the second one
lies, and the range is what makes sure that no shorter form is meant and that the number is one of a character. Every
byte after the second is in the same range.
-/

namespace Overseer.Text

/-- A byte that another one follows. -/
theorem lossyFrom_next {value missing low high n : ℕ} (hn : n < 256) (hlow : low ≤ n) (hhigh : n ≤ high)
    (rest : List UInt8) :
    lossyFrom (some ⟨value, missing + 2, low, high⟩) (UInt8.ofNat n :: rest) =
      lossyFrom (some ⟨value * 64 + (n - 0x80), missing + 1, 0x80, 0xbf⟩) rest := by
  have hbyte : (UInt8.ofNat n).toNat = n := UInt8.toNat_ofNat_of_lt' hn
  have hnext : nextByte ⟨value, missing + 2, low, high⟩ (UInt8.ofNat n) =
      ([], some ⟨value * 64 + (n - 0x80), missing + 1, 0x80, 0xbf⟩) := by
    unfold nextByte
    dsimp only
    rw [hbyte, if_pos ⟨hlow, hhigh⟩, if_neg (by omega)]
    rfl
  rw [lossyFrom, hnext]
  rfl

/-- The last byte of a character. -/
theorem lossyFrom_last {value low high n : ℕ} (hn : n < 256) (hlow : low ≤ n) (hhigh : n ≤ high) (rest : List UInt8) :
    lossyFrom (some ⟨value, 1, low, high⟩) (UInt8.ofNat n :: rest) =
      Char.ofNat (value * 64 + (n - 0x80)) :: lossyFrom none rest := by
  have hbyte : (UInt8.ofNat n).toNat = n := UInt8.toNat_ofNat_of_lt' hn
  have hnext : nextByte ⟨value, 1, low, high⟩ (UInt8.ofNat n) = ([Char.ofNat (value * 64 + (n - 0x80))], none) := by
    unfold nextByte
    dsimp only
    rw [hbyte, if_pos ⟨hlow, hhigh⟩, if_pos le_rfl]
  rw [lossyFrom, hnext]
  rfl

theorem lossyFrom_ascii {n : ℕ} (h : n < 0x80) (rest : List UInt8) :
    lossyFrom none (UInt8.ofNat n :: rest) = Char.ofNat n :: lossyFrom none rest := by
  have hbyte : (UInt8.ofNat n).toNat = n := UInt8.toNat_ofNat_of_lt' (show n < 256 by omega)
  have hfirst : firstByte (UInt8.ofNat n) = ([Char.ofNat n], none) := by
    unfold firstByte
    rw [hbyte, if_pos h]
  rw [lossyFrom, hfirst]
  rfl

/-- The first byte of two. -/
theorem lossyFrom_two {n : ℕ} (hlow : 0xc2 ≤ n) (hhigh : n < 0xe0) (rest : List UInt8) :
    lossyFrom none (UInt8.ofNat n :: rest) = lossyFrom (some ⟨n - 0xc0, 1, 0x80, 0xbf⟩) rest := by
  have hbyte : (UInt8.ofNat n).toNat = n := UInt8.toNat_ofNat_of_lt' (show n < 256 by omega)
  have hfirst : firstByte (UInt8.ofNat n) = ([], some ⟨n - 0xc0, 1, 0x80, 0xbf⟩) := by
    unfold firstByte
    rw [hbyte, if_neg (by omega), if_neg (by omega), if_pos hhigh]
  rw [lossyFrom, hfirst]
  rfl

/-- The first byte of three. -/
theorem lossyFrom_three {n : ℕ} (hlow : 0xe0 ≤ n) (hhigh : n < 0xf0) (rest : List UInt8) :
    lossyFrom none (UInt8.ofNat n :: rest) = lossyFrom (some ⟨n - 0xe0, 2,
      if n = 0xe0 then 0xa0 else 0x80, if n = 0xed then 0x9f else 0xbf⟩) rest := by
  have hbyte : (UInt8.ofNat n).toNat = n := UInt8.toNat_ofNat_of_lt' (show n < 256 by omega)
  have hfirst : firstByte (UInt8.ofNat n) = ([], some ⟨n - 0xe0, 2,
      if n = 0xe0 then 0xa0 else 0x80, if n = 0xed then 0x9f else 0xbf⟩) := by
    unfold firstByte
    rw [hbyte, if_neg (by omega), if_neg (by omega), if_neg (by omega), if_pos hhigh]
  rw [lossyFrom, hfirst]
  rfl

/-- The first byte of four. -/
theorem lossyFrom_four {n : ℕ} (hlow : 0xf0 ≤ n) (hhigh : n < 0xf5) (rest : List UInt8) :
    lossyFrom none (UInt8.ofNat n :: rest) = lossyFrom (some ⟨n - 0xf0, 3,
      if n = 0xf0 then 0x90 else 0x80, if n = 0xf4 then 0x8f else 0xbf⟩) rest := by
  have hbyte : (UInt8.ofNat n).toNat = n := UInt8.toNat_ofNat_of_lt' (show n < 256 by omega)
  have hfirst : firstByte (UInt8.ofNat n) = ([], some ⟨n - 0xf0, 3,
      if n = 0xf0 then 0x90 else 0x80, if n = 0xf4 then 0x8f else 0xbf⟩) := by
    unfold firstByte
    rw [hbyte, if_neg (by omega), if_neg (by omega), if_neg (by omega), if_neg (by omega), if_pos hhigh]
  rw [lossyFrom, hfirst]
  rfl

theorem lossyFrom_char (c : Char) (rest : List UInt8) :
    lossyFrom none (String.utf8EncodeChar c ++ rest) = c :: lossyFrom none rest := by
  obtain ⟨v, hv⟩ : ∃ v, c.val.toNat = v := ⟨_, rfl⟩
  have hvalid : v < 0xd800 ∨ 0xdfff < v ∧ v < 0x110000 := hv ▸ c.valid
  have hchar : Char.ofNat v = c := hv ▸ Char.ofNat_toNat c
  unfold String.utf8EncodeChar
  rw [hv]
  dsimp only
  split
  · rw [List.singleton_append, lossyFrom_ascii (by omega), hchar]
  · split
    · rw [List.cons_append, List.singleton_append, lossyFrom_two (by omega) (by omega),
        lossyFrom_last (by omega) (by omega) (by omega)]
      rw [show (v / 64 % 32 + 192 - 0xc0) * 64 + (v % 64 + 128 - 0x80) = v by omega, hchar]
    · split
      · rw [List.cons_append, List.cons_append, List.singleton_append, lossyFrom_three (by omega) (by omega),
          lossyFrom_next (by omega) (by split <;> omega) (by split <;> omega),
          lossyFrom_last (by omega) (by omega) (by omega)]
        rw [show ((v / 4096 % 16 + 224 - 0xe0) * 64 + (v / 64 % 64 + 128 - 0x80)) * 64 + (v % 64 + 128 - 0x80) = v by
          omega, hchar]
      · rw [List.cons_append, List.cons_append, List.cons_append, List.singleton_append,
          lossyFrom_four (by omega) (by omega),
          lossyFrom_next (by omega) (by split <;> omega) (by split <;> omega),
          lossyFrom_next (by omega) (by omega) (by omega),
          lossyFrom_last (by omega) (by omega) (by omega)]
        rw [show (((v / 262144 % 8 + 240 - 0xf0) * 64 + (v / 4096 % 64 + 128 - 0x80)) * 64
          + (v / 64 % 64 + 128 - 0x80)) * 64 + (v % 64 + 128 - 0x80) = v by omega, hchar]

/-- What is written as bytes is read as it was. -/
theorem lossy_encode (s : List Char) : lossy (encode s) = s := by
  induction s with
  | nil => rfl
  | cons c s ih =>
    refine (lossyFrom_char c (encode s)).trans ?_
    exact congrArg (c :: ·) ih

end Overseer.Text
