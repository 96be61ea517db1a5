/-
# Texts are read back from their bytes

The bytes of a text in UTF-8 fall into the characters of the text, with no malformed piece among
them.  Every character is encoded in one to four bytes, and the ranges that `firstPiece` asks of
the second byte hold no long form and no surrogate; so there is one lemma for each length, and each
is a matter of which bits of the number of the character go into which byte.
-/
import CoverageEstimate.Text.Bytes
import Mathlib.Tactic.Lemma

namespace CoverageEstimate.Text

lemma byte_toNat {n : Nat} (h : n < 256) : (UInt8.ofNat n).toNat = n := UInt8.toNat_ofNat_of_lt' h

/-- The byte that continues a character with six of its bits. -/
def tailByte (n : Nat) : UInt8 := UInt8.ofNat (n % 64 + 128)

lemma tailByte_toNat (n : Nat) : (tailByte n).toNat = n % 64 + 128 := byte_toNat (by omega)

lemma isTail_tailByte (n : Nat) : isTail (tailByte n) = true := by
  simp only [isTail, Bool.and_eq_true, decide_eq_true_eq, UInt8.le_iff_toNat_le, tailByte_toNat,
    UInt8.toNat_ofNat]
  omega

lemma tailBits_tailByte (n : Nat) : tailBits (tailByte n) = n % 64 := by
  rw [tailBits, tailByte_toNat]
  omega

/-! ## The four lengths -/

lemma firstPiece_one {n : Nat} (h : n ≤ 127) (rest : List UInt8) :
    firstPiece (UInt8.ofNat n) rest = (.char (Char.ofNat n), 0) := by
  have hsmall : UInt8.ofNat n < 0x80 := by
    rw [UInt8.lt_iff_toNat_lt, byte_toNat (by omega)]
    exact Nat.lt_succ_of_le h
  rw [firstPiece.eq_def, if_pos hsmall, byte_toNat (by omega)]

lemma firstPiece_two {n : Nat} (hlow : 127 < n) (hhigh : n ≤ 2047) (rest : List UInt8) :
    firstPiece (UInt8.ofNat (n / 64 % 32 + 192)) (tailByte n :: rest) =
      (.char (Char.ofNat n), 1) := by
  have hbyte : (UInt8.ofNat (n / 64 % 32 + 192)).toNat = n / 64 % 32 + 192 := byte_toNat (by omega)
  have hvalue : (n / 64 % 32 + 192) % 32 * 64 + n % 64 = n := by omega
  rw [firstPiece, if_neg, if_pos]
  · simp only [isTail_tailByte, if_true, tailBits_tailByte, hbyte, hvalue]
  · simp only [Bool.and_eq_true, decide_eq_true_eq, UInt8.le_iff_toNat_le, hbyte, UInt8.toNat_ofNat]
    omega
  · simp only [UInt8.lt_iff_toNat_lt, hbyte, UInt8.toNat_ofNat]
    omega

/-- The number of a character is no surrogate and not beyond the last character. -/
lemma bounds_of_char (c : Char) : c.toNat < 0xD800 ∨ 0xDFFF < c.toNat ∧ c.toNat < 0x110000 :=
  c.valid

lemma firstPiece_three {n : Nat} (hlow : 2047 < n) (hhigh : n ≤ 65535)
    (hchar : n < 0xD800 ∨ 0xDFFF < n) (rest : List UInt8) :
    firstPiece (UInt8.ofNat (n / 4096 % 16 + 224)) (tailByte (n / 64) :: tailByte n :: rest) =
      (.char (Char.ofNat n), 2) := by
  have hbyte : (UInt8.ofNat (n / 4096 % 16 + 224)).toNat = n / 4096 % 16 + 224 :=
    byte_toNat (by omega)
  have hvalue : ((n / 4096 % 16 + 224) % 16 * 64 + n / 64 % 64) * 64 + n % 64 = n := by omega
  have hsecond :
      isSecondOfThree (UInt8.ofNat (n / 4096 % 16 + 224)) (tailByte (n / 64)) = true := by
    rw [isSecondOfThree, isTail_tailByte]
    simp only [beq_iff_eq, ← UInt8.toNat_inj, hbyte, UInt8.le_iff_toNat_le, tailByte_toNat,
      UInt8.toNat_ofNat]
    split
    · simp only [Bool.and_eq_true, decide_eq_true_eq]
      omega
    · split
      · simp only [Bool.and_eq_true, decide_eq_true_eq]
        omega
      · rfl
  rw [firstPiece, if_neg, if_neg, if_pos]
  · simp only [hsecond, Bool.not_true, Bool.false_eq_true, if_false, isTail_tailByte, if_true,
      tailBits_tailByte, hbyte, hvalue]
  all_goals
    simp only [Bool.and_eq_true, decide_eq_true_eq, UInt8.le_iff_toNat_le, UInt8.lt_iff_toNat_lt,
      hbyte, UInt8.toNat_ofNat]
    omega

lemma firstPiece_four {n : Nat} (hlow : 65535 < n) (hhigh : n < 0x110000) (rest : List UInt8) :
    firstPiece (UInt8.ofNat (n / 262144 % 8 + 240))
      (tailByte (n / 4096) :: tailByte (n / 64) :: tailByte n :: rest) =
      (.char (Char.ofNat n), 3) := by
  have hbyte : (UInt8.ofNat (n / 262144 % 8 + 240)).toNat = n / 262144 % 8 + 240 :=
    byte_toNat (by omega)
  have hvalue : (((n / 262144 % 8 + 240) % 8 * 64 + n / 4096 % 64) * 64 + n / 64 % 64) * 64 +
      n % 64 = n := by omega
  have hsecond :
      isSecondOfFour (UInt8.ofNat (n / 262144 % 8 + 240)) (tailByte (n / 4096)) = true := by
    rw [isSecondOfFour, isTail_tailByte]
    simp only [beq_iff_eq, ← UInt8.toNat_inj, hbyte, UInt8.le_iff_toNat_le, tailByte_toNat,
      UInt8.toNat_ofNat]
    split
    · simp only [Bool.and_eq_true, decide_eq_true_eq]
      omega
    · split
      · simp only [Bool.and_eq_true, decide_eq_true_eq]
        omega
      · rfl
  rw [firstPiece, if_neg, if_neg, if_neg, if_pos]
  · simp only [hsecond, Bool.not_true, Bool.false_eq_true, if_false, isTail_tailByte, if_true,
      tailBits_tailByte, hbyte, hvalue]
  all_goals
    simp only [Bool.and_eq_true, decide_eq_true_eq, UInt8.le_iff_toNat_le, UInt8.lt_iff_toNat_lt,
      hbyte, UInt8.toNat_ofNat]
    omega

/-! ## Texts -/

/-- The bytes of a character are one piece, whatever comes behind them. -/
lemma piecesFrom_utf8EncodeChar (c : Char) (rest : List UInt8) :
    piecesFrom 0 (String.utf8EncodeChar c ++ rest) = .char c :: piecesFrom 0 rest := by
  have hnat : c.val.toNat = c.toNat := rfl
  have hchar : Char.ofNat c.toNat = c := Char.ofNat_toNat c
  have hbounds := bounds_of_char c
  rw [String.utf8EncodeChar, hnat]
  split
  · rename_i hone
    simp only [List.cons_append, List.nil_append, piecesFrom, firstPiece_one hone, hchar]
  · rename_i hone
    split
    · rename_i htwo
      have hfirst := firstPiece_two (by omega) htwo rest
      simp only [tailByte] at hfirst
      simp only [List.cons_append, List.nil_append, piecesFrom, hfirst, hchar]
    · rename_i htwo
      split
      · rename_i hthree
        have hfirst := firstPiece_three (by omega) hthree (by omega) rest
        simp only [tailByte] at hfirst
        simp only [List.cons_append, List.nil_append, piecesFrom, hfirst, hchar]
      · rename_i hthree
        have hfirst := firstPiece_four (by omega) (n := c.toNat) (by omega) rest
        simp only [tailByte] at hfirst
        simp only [List.cons_append, List.nil_append, piecesFrom, hfirst, hchar]

/-- **Texts as bytes.**  The pieces of the bytes of a text are the characters of the text. -/
lemma pieces_bytesOf (s : String) : pieces (bytesOf s) = piecesOf s := by
  rw [pieces, bytesOf, piecesOf]
  induction s.toList with
  | nil => rfl
  | cons c cs ih => rw [List.flatMap_cons, piecesFrom_utf8EncodeChar, ih, List.map_cons]

end CoverageEstimate.Text
