/-
# Quotients of small natural numbers

The arithmetic of doubles is defined on their bits: a double is unpacked into a mantissa and an
exponent, the operation keeps what it needs to round, and the result is packed again.  For natural
numbers this comes to one rule: the quotient is the nearest multiple of the power of two that gives
it a mantissa of 53 bits (`div_eq`).  It depends on the ratio of the two numbers alone.

All numbers here are so small that the rounding never carries into another bit.
-/
import CoverageEstimate.Decimal.Binary
import Mathlib

namespace CoverageEstimate.Decimal

open Float.Model Float.Model.UnpackedFloat

/-- The number has 53 bits, as the mantissas of all doubles but the smallest ones have. -/
structure IsMantissa (m : Nat) : Prop where
  low : 2 ^ 52 ≤ m
  high : m < 2 ^ 53

namespace IsMantissa

variable {m : Nat}

lemma pos (h : IsMantissa m) : 0 < m := Nat.lt_of_lt_of_le (by decide) h.low

lemma log2 (h : IsMantissa m) : m.log2 = 52 :=
  (Nat.log2_eq_iff (Nat.ne_of_gt h.pos)).mpr ⟨h.low, h.high⟩

lemma log2_mul (h : IsMantissa m) (shift : Nat) : (m * 2 ^ shift).log2 = 52 + shift := by
  have hpos := Nat.mul_pos h.pos (Nat.two_pow_pos shift)
  refine (Nat.log2_eq_iff (Nat.ne_of_gt hpos)).mpr ⟨?_, ?_⟩
  · rw [Nat.pow_add]
    exact Nat.mul_le_mul_right _ h.low
  · rw [Nat.add_right_comm, Nat.pow_add]
    exact Nat.mul_lt_mul_of_pos_right h.high (Nat.two_pow_pos shift)

end IsMantissa

/-! ## Operations -/

section Operations

variable (x y : Float)

lemma add_unpacked :
    x + y = ⟨.pack (UnpackedFloat.add .binary64 x.toModel.unpack y.toModel.unpack)⟩ := rfl

lemma mul_unpacked :
    x * y = ⟨.pack (UnpackedFloat.mul .binary64 x.toModel.unpack y.toModel.unpack)⟩ := rfl

lemma div_unpacked :
    x / y = ⟨.pack (UnpackedFloat.div .binary64 x.toModel.unpack y.toModel.unpack)⟩ := rfl

end Operations

/-- The positive double `m · 2 ^ e`. -/
def positive (m : Nat) (e : Int) (pos : 0 < m) : Float := ⟨.pack (.finite .positive m e pos)⟩

/-- The exponent is in the range of the doubles whose mantissas have 53 bits. -/
structure IsExponent (e : Int) : Prop where
  low : -1074 ≤ e
  high : e ≤ 971

/-! ## Packing -/

section Packing

variable {m : Nat} {e : Int}

lemma pack_finite (hm : IsMantissa m) (he : IsExponent e) :
    UnpackedFloat.pack .binary64 (.finite .positive m e hm.pos) =
      packComponents .binary64 .positive (BitVec.ofNat 11 (e + 1075).toNat)
        (BitVec.ofNat 52 m) := by
  have hlow := he.low
  have hhigh := he.high
  have hbias : (e + (Format.binary64.exponentBias : Nat) +
      (Format.binary64.mantissaBitsWithoutImplicit : Nat)).toNat = (e + 1075).toNat := by
    change (e + (1023 : Nat) + (52 : Nat)).toNat = (e + 1075).toNat
    omega
  have hbits : 52 + 1 = Format.binary64.mantissaBits := rfl
  simp only [UnpackedFloat.pack, hbias, hm.log2, hbits, if_true]
  rw [if_neg (by omega)]

lemma unpack_positive (hm : IsMantissa m) (he : IsExponent e) :
    (positive m e hm.pos).toModel.unpack = .finite .positive m e hm.pos := by
  have hlow := he.low
  have hhigh := he.high
  change UnpackedFloat.unpack .binary64
    (UnpackedFloat.pack .binary64 (.finite .positive m e hm.pos)) = _
  rw [pack_finite hm he, UnpackedFloat.unpack]
  simp only [unpackExponent_packComponents, unpackMantissa_packComponents,
    unpackSign_packComponents]
  have hexponent : (BitVec.ofNat 11 (e + 1075).toNat).toNat = (e + 1075).toNat := by
    rw [BitVec.toNat_ofNat, Nat.mod_eq_of_lt (by omega)]
  rw [if_neg, if_neg]
  · have hmantissa : (1#1 ++ BitVec.ofNat 52 m).toNat = m := by
      rw [BitVec.toNat_append, BitVec.toNat_ofNat, ← Nat.shiftLeft_add_eq_or_of_lt]
      · have hlow := hm.low
        have hhigh := hm.high
        simp only [Nat.shiftLeft_eq, BitVec.toNat_ofNat]
        omega
      · exact Nat.mod_lt _ (by decide)
    have hbias : ((BitVec.ofNat 11 (e + 1075).toNat).toNat : Int) -
        ((Format.binary64.exponentBias : Nat) +
          (Format.binary64.mantissaBitsWithoutImplicit : Nat)) = e := by
      rw [hexponent]
      change ((e + 1075).toNat : Int) - ((1023 : Nat) + (52 : Nat)) = e
      omega
    simp only [hmantissa, hbias]
    rfl
  · intro hzero
    have := congrArg BitVec.toNat hzero
    rw [hexponent] at this
    change (e + 1075).toNat = 0 at this
    omega
  · intro hall
    have := congrArg BitVec.toNat hall
    rw [hexponent] at this
    change (e + 1075).toNat = 2047 at this
    omega

/-- The bits of a positive double are its exponent and its mantissa without the leading bit. -/
lemma toBits_positive (hm : IsMantissa m) (he : IsExponent e) :
    (positive m e hm.pos).toBits.toNat = (e + 1075).toNat * 2 ^ 52 + (m - 2 ^ 52) := by
  have hlow := he.low
  have hhigh := he.high
  have hfraction : m % 2 ^ 52 = m - 2 ^ 52 := by
    have hlow := hm.low
    have hhigh := hm.high
    omega
  change (UnpackedFloat.pack .binary64 (.finite .positive m e hm.pos)).toNat = _
  rw [pack_finite hm he]
  change (0#1 ++ BitVec.ofNat 11 (e + 1075).toNat ++ BitVec.ofNat 52 m).toNat = _
  rw [BitVec.toNat_append, BitVec.toNat_append, ← Nat.shiftLeft_add_eq_or_of_lt (BitVec.isLt _),
    ← Nat.shiftLeft_add_eq_or_of_lt (BitVec.isLt _), BitVec.toNat_ofNat, BitVec.toNat_ofNat,
    BitVec.toNat_ofNat, Nat.mod_eq_of_lt (show (e + 1075).toNat < 2 ^ 11 by omega), hfraction,
    Nat.shiftLeft_eq, Nat.shiftLeft_eq]
  simp

/-- The exact value of a positive double. -/
lemma ofFloat_positive (hm : IsMantissa m) (he : IsExponent e) :
    Class.ofFloat (positive m e hm.pos) =
      .finite ⟨false, m, e, m - 2 ^ 52 == 0 && decide ((e + 1075).toNat > 1)⟩ := by
  have hlow := he.low
  have hhigh := he.high
  have hmlow := hm.low
  have hmhigh := hm.high
  have hsign : ((e + 1075).toNat * 2 ^ 52 + (m - 2 ^ 52)) / Nat.pow 2 63 % 2 = 0 := by
    rw [Nat.pow_eq]
    omega
  have hexponent : ((e + 1075).toNat * 2 ^ 52 + (m - 2 ^ 52)) / Nat.pow 2 52 % Nat.pow 2 11 =
      (e + 1075).toNat := by
    rw [Nat.pow_eq, Nat.pow_eq]
    omega
  have hfraction : ((e + 1075).toNat * 2 ^ 52 + (m - 2 ^ 52)) % Nat.pow 2 52 = m - 2 ^ 52 := by
    rw [Nat.pow_eq]
    omega
  have hwhole : Nat.pow 2 52 + (m - 2 ^ 52) = m := by
    rw [Nat.pow_eq]
    omega
  have hbias : ((e + 1075).toNat : Int) - 1075 = e := by omega
  have hnormal : ¬(e + 1075).toNat = 2047 ∧ ¬(e + 1075).toNat = 0 := by omega
  rw [Class.ofFloat, toBits_positive hm he, Class.ofBits]
  simp only [hsign, hexponent, hfraction, hwhole, hbias, beq_iff_eq, hnormal.1, hnormal.2, if_false]
  rfl

end Packing

/-! ## Rounding -/

section Rounding

variable {mantissa m : Nat} {e : Int} {accuracy : Accuracy}

/-- A mantissa of too many bits is shifted down to 53 of them. -/
lemma shiftToTargetExponent_of_log2 {shift : Nat} (bits : mantissa.log2 = 52 + shift)
    (he : -1074 ≤ e + shift) :
    shiftToTargetExponent .binary64 mantissa e accuracy =
      (ExtendedMantissa.ofMantissaAndAccuracy mantissa accuracy >>> shift, e + shift) := by
  have htarget : Format.binary64.targetExponent (totalExponent mantissa e) = e + shift := by
    change max ((mantissa.log2 : Int) + 1 + e - (53 : Nat)) (-1074) = e + shift
    rw [bits]
    omega
  have hshift : (e + (shift : Int) - e).toNat = shift := by omega
  rw [shiftToTargetExponent, htarget, shiftToExponent, hshift]

/-- A number is rounded to the mantissa that is left of it when the rounding does not carry. -/
lemma roundWithAccuracy_eq {shift : Nat} (bits : mantissa.log2 = 52 + shift)
    (he : -1074 ≤ e + shift) (hm : IsMantissa m)
    (rounded : (ExtendedMantissa.ofMantissaAndAccuracy mantissa accuracy >>> shift).roundedMantissa
      = m) :
    roundWithAccuracy .binary64 .positive mantissa e accuracy =
      .finite .positive m (e + shift) hm.pos := by
  have hagain := @shiftToTargetExponent_of_log2 m (e + shift) .exact 0 hm.log2 (by omega)
  have hexact : (ExtendedMantissa.ofMantissaAndAccuracy m .exact >>> 0).mantissa = m := rfl
  rw [roundWithAccuracy, shiftToTargetExponent_of_log2 bits he]
  simp only [rounded, hagain, hexact, Nat.ne_of_gt hm.pos, dif_neg, not_false_eq_true]
  simp

lemma shift_succ (em : ExtendedMantissa) (shift : Nat) :
    em >>> (shift + 1) = (em >>> shift).shiftRightOne := rfl

/-- A mantissa that ends in zeros is shifted by these without loss. -/
lemma shift_exact (m shift : Nat) :
    ExtendedMantissa.ofMantissaAndAccuracy (m * 2 ^ shift) .exact >>> shift =
      ⟨m, false, false⟩ := by
  induction shift generalizing m with
  | zero => simp [ExtendedMantissa.ofMantissaAndAccuracy, HShiftRight.hShiftRight, Nat.repeat]
  | succ shift ih =>
    have hmul : m * 2 ^ (shift + 1) = 2 * m * 2 ^ shift := by
      rw [Nat.pow_succ, Nat.mul_comm 2 m, Nat.mul_assoc, Nat.mul_comm 2]
    rw [hmul, shift_succ, ih, ExtendedMantissa.shiftRightOne]
    simp

end Rounding

/-! ## Natural numbers -/

/-- The mantissa of a natural number. -/
def mantissaOf (n : Nat) : Nat := n * 2 ^ (52 - n.log2)

/-- The exponent of a natural number. -/
def exponentOf (n : Nat) : Int := -((52 - n.log2 : Nat) : Int)

section Naturals

variable {n : Nat}

lemma log2_le (h : n < 2 ^ 53) : n.log2 ≤ 52 := by
  by_cases hzero : n = 0
  · simp [hzero]
  · exact Nat.le_of_lt_succ ((Nat.log2_lt hzero).mpr h)

lemma isMantissa_mantissaOf (pos : 0 < n) (h : n < 2 ^ 53) : IsMantissa (mantissaOf n) := by
  have hbits := log2_le h
  have hlow := Nat.mul_le_mul_right (2 ^ (52 - n.log2)) (Nat.log2_self_le (Nat.ne_of_gt pos))
  have hhigh :=
    Nat.mul_lt_mul_of_pos_right (Nat.lt_log2_self (n := n)) (Nat.two_pow_pos (52 - n.log2))
  have hlowBits : n.log2 + (52 - n.log2) = 52 := by omega
  have hhighBits : n.log2 + 1 + (52 - n.log2) = 53 := by omega
  rw [← Nat.pow_add, hlowBits] at hlow
  rw [← Nat.pow_add, hhighBits] at hhigh
  exact ⟨hlow, hhigh⟩

lemma isExponent_exponentOf (n : Nat) : IsExponent (exponentOf n) := by
  constructor <;> rw [exponentOf] <;> omega

/-- A small natural number is a double without any rounding. -/
lemma unpacked_ofNat (pos : 0 < n) (h : n < 2 ^ 53) :
    UnpackedFloat.ofNat .binary64 n =
      .finite .positive (mantissaOf n) (exponentOf n) (isMantissa_mantissaOf pos h).pos := by
  have hbits := log2_le h
  have hm := isMantissa_mantissaOf pos h
  have htarget : Format.binary64.targetExponent (totalExponent n 0) = exponentOf n := by
    change max ((n.log2 : Int) + 1 + 0 - (53 : Nat)) (-1074) = exponentOf n
    rw [exponentOf]
    omega
  have hshift : (0 - exponentOf n).toNat = 52 - n.log2 := by
    rw [exponentOf]
    omega
  have hexponent : (0 : Int) - ((52 - n.log2 : Nat) : Int) = exponentOf n := by
    rw [exponentOf]
    omega
  have hcompare : compare (n : Int) 0 = .gt := Int.compare_eq_gt.mpr (Int.natCast_pos.mpr pos)
  have hexact := shift_exact (mantissaOf n) 0
  rw [Nat.pow_zero, Nat.mul_one] at hexact
  have hround := @roundWithAccuracy_eq _ _ (exponentOf n) .exact 0 hm.log2
    (by have := (isExponent_exponentOf n).low; omega) hm (by rw [hexact]; rfl)
  rw [UnpackedFloat.ofNat, UnpackedFloat.ofInt, UnpackedFloat.normalize, hcompare]
  simp only [UnpackedFloat.round, Int.toNat_natCast, htarget, decreaseExponent, hshift, hexponent,
    Nat.shiftLeft_eq]
  rw [← mantissaOf, hround]
  simp

lemma toFloat_toUInt64 (pos : 0 < n) (h : n < 2 ^ 53) :
    n.toUInt64.toFloat =
      positive (mantissaOf n) (exponentOf n) (isMantissa_mantissaOf pos h).pos := by
  have hn : n.toUInt64.toNat = n := UInt64.toNat_ofNat_of_lt' (Nat.lt_trans h (by decide))
  have hfloat : n.toUInt64.toFloat =
      ⟨.pack (UnpackedFloat.ofNat .binary64 n.toUInt64.toNat)⟩ := rfl
  rw [hfloat, hn, unpacked_ofNat pos h]
  rfl

/-- The double of a natural number: the factor of one that it is made with changes nothing. -/
lemma ofNat_eq (pos : 0 < n) (h : n < 2 ^ 53) :
    Float.ofNat n = positive (mantissaOf n) (exponentOf n) (isMantissa_mantissaOf pos h).pos := by
  have hm := isMantissa_mantissaOf pos h
  have he := isExponent_exponentOf n
  have hfactor : Float.ofNat n = n.toUInt64.toFloat * Float.exactlyRepresentablePowersOfTen[0] := by
    change Float.ofScientific n false 0 = _
    rw [Float.ofScientific, dif_pos ⟨h, by decide⟩]
    simp
  have hone : (Float.exactlyRepresentablePowersOfTen[0]).toModel.unpack =
      .finite .positive (2 ^ 52) (-52) (by decide) := rfl
  have hround := @roundWithAccuracy_eq _ _ (exponentOf n + -52) .exact _ (hm.log2_mul 52)
    (by have := he.low; omega) hm (by rw [shift_exact]; rfl)
  have hexponent : exponentOf n + -52 + ((52 : Nat) : Int) = exponentOf n := by omega
  rw [hexponent] at hround
  rw [hfactor, mul_unpacked, hone, toFloat_toUInt64 pos h, unpack_positive hm he, UnpackedFloat.mul]
  change (⟨.pack (roundWithAccuracy .binary64 .positive (mantissaOf n * 2 ^ 52) _ .exact)⟩ :
    Float) = _
  rw [hround]
  rfl

end Naturals

/-! ## Quotients -/

section Quotients

variable {num den : Nat}

lemma roundedMantissa_eq (m : Nat) (round sticky : Bool) :
    (⟨m, round, sticky⟩ : ExtendedMantissa).roundedMantissa =
      if round then if sticky then m + 1 else m + m % 2 else m := by
  cases round <;> cases sticky <;> rfl

/-- What a division keeps of its remainder is enough to round the quotient. -/
lemma rounded_quotient (pos : 0 < den) :
    (ExtendedMantissa.ofMantissaAndAccuracy (num / den)
        (accuracyOfFraction (num % den) den)).roundedMantissa = roundHalfEven num den := by
  rw [accuracyOfFraction, roundHalfEven]
  by_cases hexact : num % den = 0
  · rw [if_pos hexact]
    simp only [hexact, Nat.mul_zero, pos, if_true]
    rfl
  · rw [if_neg hexact]
    rcases Nat.lt_trichotomy (2 * (num % den)) den with hlt | heq | hgt
    · rw [Nat.compare_eq_lt.mpr hlt, if_pos hlt]
      rfl
    · rw [Nat.compare_eq_eq.mpr heq, if_neg (by omega), if_neg (by omega)]
      change num / den + num / den % 2 = _
      simp only [beq_iff_eq]
      split <;> omega
    · rw [Nat.compare_eq_gt.mpr hgt, if_neg (by omega), if_pos hgt]
      rfl

/-- The same when the quotient has one bit too many. -/
lemma rounded_quotient_shift (pos : 0 < den) :
    (ExtendedMantissa.ofMantissaAndAccuracy (num / den)
        (accuracyOfFraction (num % den) den) >>> 1).roundedMantissa =
      roundHalfEven num (den * 2) := by
  have hhalf : num / (den * 2) = num / den / 2 := (Nat.div_div_eq_div_mul _ _ _).symm
  have hrest : num % (den * 2) = num % den + den * (num / den % 2) := Nat.mod_mul
  have hlt := Nat.mod_lt num pos
  have hodd : num / den % 2 = 0 ∨ num / den % 2 = 1 := Nat.mod_two_eq_zero_or_one _
  -- the bit that is shifted out decides, and everything below it only tells a half from more
  obtain ⟨sticky, hsticky, hshift⟩ : ∃ sticky : Bool, (sticky = true ↔ num % den ≠ 0) ∧
      ExtendedMantissa.ofMantissaAndAccuracy (num / den)
        (accuracyOfFraction (num % den) den) >>> 1 =
      ⟨num / den / 2, num / den % 2 != 0, sticky⟩ := by
    rw [accuracyOfFraction]
    split
    · exact ⟨false, by simp [*], rfl⟩
    · cases compare (2 * (num % den)) den <;> exact ⟨true, by simp [*], rfl⟩
  rw [hshift, roundedMantissa_eq, roundHalfEven, hhalf, hrest]
  rcases hodd with heven | hodd
  · have hbelow : 2 * (num % den + den * 0) < den * 2 := by omega
    simp only [heven, bne_self_eq_false, Bool.false_eq_true, if_false]
    rw [if_pos hbelow]
  · have hone : (1 != 0) = true := rfl
    have hnot : ¬2 * (num % den + den) < den * 2 := by omega
    simp only [hodd, Nat.mul_one, hone, if_true, hnot, if_false]
    cases sticky with
    | true =>
      have hpos : 0 < num % den := Nat.pos_of_ne_zero (hsticky.mp rfl)
      have habove : den * 2 < 2 * (num % den + den) := by omega
      simp only [habove, if_true]
    | false =>
      have hzero : num % den = 0 := by simpa using hsticky
      have htie : ¬den * 2 < 2 * (num % den + den) := by omega
      simp only [htie, if_false, Bool.false_eq_true, beq_iff_eq]
      split <;> omega

/-- The rounding is off by half a unit at most. -/
lemma roundHalfEven_near (num : Nat) (pos : 0 < den) :
    2 * num ≤ (2 * roundHalfEven num den + 1) * den ∧
      2 * roundHalfEven num den * den ≤ 2 * num + den := by
  have hnum := Nat.div_add_mod num den
  have hlt := Nat.mod_lt num pos
  have hround : roundHalfEven num den = num / den ∧ 2 * (num % den) ≤ den ∨
      roundHalfEven num den = num / den + 1 ∧ den ≤ 2 * (num % den) := by
    rw [roundHalfEven]
    split
    · exact .inl ⟨rfl, by omega⟩
    · split
      · exact .inr ⟨rfl, by omega⟩
      · split
        · exact .inl ⟨rfl, by omega⟩
        · exact .inr ⟨rfl, by omega⟩
  rw [Nat.mul_comm] at hnum
  rcases hround with ⟨hr, hrest⟩ | ⟨hr, hrest⟩ <;>
    simp only [hr, Nat.add_mul, Nat.mul_add, Nat.mul_assoc, Nat.mul_one, Nat.one_mul] <;> omega

/-- The rounding depends on the ratio alone. -/
lemma roundHalfEven_mul {factor : Nat} (pos : 0 < factor) (num den : Nat) :
    roundHalfEven (num * factor) (den * factor) = roundHalfEven num den := by
  have hcompare : ∀ a b : Nat, a * factor < b * factor ↔ a < b := fun a b =>
    Nat.mul_lt_mul_right pos
  simp only [roundHalfEven, Nat.mul_div_mul_right num den pos, Nat.mul_mod_mul_right,
    ← Nat.mul_assoc, hcompare]

/-- The quotient of two doubles is the quotient of their mantissas, which is made with bits enough
and then rounded. -/
lemma div_eq_round {m₁ m₂ : Nat} {e₁ e₂ : Int} (h₁ : IsMantissa m₁) (h₂ : IsMantissa m₂)
    (he₁ : IsExponent e₁) (he₂ : IsExponent e₂) (range : -1074 ≤ e₁ - e₂ - 53) :
    positive m₁ e₁ h₁.pos / positive m₂ e₂ h₂.pos =
      ⟨.pack (roundWithAccuracy .binary64 .positive (m₁ * 2 ^ 53 / m₂) (e₁ - e₂ - 53)
        (accuracyOfFraction (m₁ * 2 ^ 53 % m₂) m₂))⟩ := by
  have htarget : min (e₁ - e₂) (Format.binary64.targetExponent
      (totalExponent m₁ e₁ - totalExponent m₂ e₂)) = e₁ - e₂ - 53 := by
    change min (e₁ - e₂) (max ((m₁.log2 : Int) + 1 + e₁ - ((m₂.log2 : Int) + 1 + e₂) - (53 : Nat))
      (-1074)) = _
    rw [h₁.log2, h₂.log2]
    omega
  have hshift : (e₁ - e₂ - (e₁ - e₂ - 53)).toNat = 53 := by omega
  rw [div_unpacked, unpack_positive h₁ he₁, unpack_positive h₂ he₂, UnpackedFloat.div]
  simp only [divCore, htarget, hshift, Nat.shiftLeft_eq]
  rfl

/-- Of the quotient, 53 bits are kept. -/
lemma div_positive {m₁ m₂ m shift : Nat} {e₁ e₂ : Int} (h₁ : IsMantissa m₁) (h₂ : IsMantissa m₂)
    (he₁ : IsExponent e₁) (he₂ : IsExponent e₂) (range : -1074 ≤ e₁ - e₂ - 53)
    (small : shift = 0 ∨ shift = 1) (bits : (m₁ * 2 ^ 53 / m₂).log2 = 52 + shift)
    (hm : IsMantissa m) (rounded : roundHalfEven (m₁ * 2 ^ 53) (m₂ * 2 ^ shift) = m) :
    positive m₁ e₁ h₁.pos / positive m₂ e₂ h₂.pos = positive m (e₁ - e₂ - 53 + shift) hm.pos := by
  have hrounded : (ExtendedMantissa.ofMantissaAndAccuracy (m₁ * 2 ^ 53 / m₂)
      (accuracyOfFraction (m₁ * 2 ^ 53 % m₂) m₂) >>> shift).roundedMantissa = m := by
    rcases small with rfl | rfl
    · rw [Nat.pow_zero, Nat.mul_one] at rounded
      exact (rounded_quotient h₂.pos).trans rounded
    · exact (rounded_quotient_shift h₂.pos).trans rounded
  rw [div_eq_round h₁ h₂ he₁ he₂ range, roundWithAccuracy_eq bits (by omega) hm hrounded]
  rfl

/-- The power of two that gives the quotient `num / den` its 53 bits. -/
structure IsScale (num den s : Nat) : Prop where
  low : 2 ^ 52 * den ≤ num * 2 ^ s
  high : num * 2 ^ s < 2 ^ 53 * den

namespace IsScale

variable {s t : Nat}

lemma den_pos (h : IsScale num den s) : 0 < den := by
  refine Nat.pos_of_ne_zero fun hzero => ?_
  have hhigh := h.high
  rw [hzero, Nat.mul_zero] at hhigh
  exact Nat.not_lt_zero _ hhigh

/-- There is only one such power. -/
lemma unique (hs : IsScale num den s) (ht : IsScale num den t) : s = t := by
  have hle : ∀ {s t : Nat}, IsScale num den s → IsScale num den t → s ≤ t := by
    intro s t hs ht
    refine Nat.le_of_not_lt fun hlt => ?_
    have hpow := Nat.mul_le_mul_left num (Nat.pow_le_pow_right (by decide : 0 < 2) hlt)
    have hlow := ht.low
    have hhigh := hs.high
    rw [Nat.pow_succ, ← Nat.mul_assoc] at hpow
    omega
  exact Nat.le_antisymm (hle hs ht) (hle ht hs)

lemma mul_iff {factor : Nat} (pos : 0 < factor) :
    IsScale (num * factor) (den * factor) s ↔ IsScale num den s := by
  have hnum : num * factor * 2 ^ s = num * 2 ^ s * factor := Nat.mul_right_comm _ _ _
  constructor
  · intro h
    have hlow := h.low
    have hhigh := h.high
    rw [hnum, ← Nat.mul_assoc] at hlow hhigh
    exact ⟨Nat.le_of_mul_le_mul_right hlow pos, Nat.lt_of_mul_lt_mul_right hhigh⟩
  · intro h
    refine ⟨?_, ?_⟩ <;> rw [hnum, ← Nat.mul_assoc]
    · exact Nat.mul_le_mul_right _ h.low
    · exact Nat.mul_lt_mul_of_pos_right h.high pos

/-- Rounding the quotient of two small numbers does not carry into another bit: what is missing to
the next power of two is a multiple of a power of two that is larger than the denominator. -/
lemma isMantissa (h : IsScale num den s) (hnum : num < 2 ^ 26) (hden : den < 2 ^ 26) :
    IsMantissa (roundHalfEven (num * 2 ^ s) den) := by
  have hlow := h.low
  have hhigh := h.high
  have hpos := h.den_pos
  obtain ⟨hbelow, habove⟩ := roundHalfEven_near (num * 2 ^ s) hpos
  have hscale : 27 ≤ s := by
    refine Nat.le_of_not_lt fun hs => ?_
    have hpow : 2 ^ s ≤ 2 ^ 26 := Nat.pow_le_pow_right (by decide) (Nat.le_of_lt_succ hs)
    have hmul := Nat.mul_le_mul (Nat.le_of_lt_succ hnum) hpow
    omega
  obtain ⟨k, hk⟩ : ∃ k, num * 2 ^ s = 2 ^ 27 * k := by
    refine ⟨num * 2 ^ (s - 27), ?_⟩
    rw [Nat.mul_left_comm, ← Nat.pow_add, Nat.add_sub_cancel' hscale]
  generalize roundHalfEven (num * 2 ^ s) den = r at hbelow habove ⊢
  rw [hk] at hlow hhigh hbelow habove
  constructor
  · refine Nat.le_of_not_lt fun hr => ?_
    have hmul : (2 * r + 1) * den ≤ (2 * 2 ^ 52 - 1) * den := Nat.mul_le_mul_right den (by omega)
    omega
  · refine Nat.lt_of_not_le fun hr => ?_
    have hmul : 2 * 2 ^ 53 * den ≤ 2 * r * den := Nat.mul_le_mul_right den (by omega)
    omega

end IsScale

/-- The quotient of two small natural numbers by its scale. -/
lemma div_of_isScale {s t : Nat} (hnum : 0 < num) (numSmall : num < 2 ^ 26)
    (denSmall : den < 2 ^ 26) (h : IsScale num den s) (ht : t = 0 ∨ t = 1)
    (hs : 52 - num.log2 + 53 = s + (52 - den.log2) + t) :
    Float.ofNat num / Float.ofNat den =
      positive (roundHalfEven (num * 2 ^ s) den) (-(s : Int))
        (h.isMantissa numSmall denSmall).pos := by
  have hden := h.den_pos
  have numFits : num < 2 ^ 53 := Nat.lt_trans numSmall (by decide)
  have denFits : den < 2 ^ 53 := Nat.lt_trans denSmall (by decide)
  have h₁ := isMantissa_mantissaOf hnum numFits
  have h₂ := isMantissa_mantissaOf hden denFits
  -- the mantissas are the numbers with zeros behind them, which do not change the ratio
  have hleft : mantissaOf num * 2 ^ 53 = num * 2 ^ s * 2 ^ (52 - den.log2 + t) := by
    rw [mantissaOf, Nat.mul_assoc, ← Nat.pow_add, hs, Nat.mul_assoc, ← Nat.pow_add, Nat.add_assoc]
  have hright : mantissaOf den * 2 ^ t = den * 2 ^ (52 - den.log2 + t) := by
    rw [mantissaOf, Nat.mul_assoc, ← Nat.pow_add]
  have hrounded : roundHalfEven (mantissaOf num * 2 ^ 53) (mantissaOf den * 2 ^ t) =
      roundHalfEven (num * 2 ^ s) den := by
    rw [hleft, hright, roundHalfEven_mul (Nat.two_pow_pos _)]
  have hbits : (mantissaOf num * 2 ^ 53 / mantissaOf den).log2 = 52 + t := by
    have hpow : 0 < 2 ^ (52 - den.log2 + t) := Nat.two_pow_pos _
    have hscaled : ∀ k, 2 ^ (k + t) * mantissaOf den = 2 ^ k * den * 2 ^ (52 - den.log2 + t) := by
      intro k
      rw [Nat.pow_add, Nat.mul_assoc, Nat.mul_comm (2 ^ t), hright, ← Nat.mul_assoc]
    have hlow : 2 ^ (52 + t) * mantissaOf den ≤ mantissaOf num * 2 ^ 53 := by
      rw [hleft, hscaled]
      exact Nat.mul_le_mul_right _ h.low
    have hhigh : mantissaOf num * 2 ^ 53 < 2 ^ (52 + t + 1) * mantissaOf den := by
      rw [hleft, Nat.add_right_comm 52 t 1, hscaled]
      exact Nat.mul_lt_mul_of_pos_right h.high hpow
    have hdiv : 2 ^ (52 + t) ≤ mantissaOf num * 2 ^ 53 / mantissaOf den :=
      (Nat.le_div_iff_mul_le h₂.pos).mpr hlow
    refine (Nat.log2_eq_iff ?_).mpr ⟨hdiv, (Nat.div_lt_iff_lt_mul h₂.pos).mpr hhigh⟩
    exact Nat.ne_of_gt (Nat.lt_of_lt_of_le (Nat.two_pow_pos _) hdiv)
  have hexponent : exponentOf num - exponentOf den - 53 + (t : Int) = -(s : Int) := by
    rw [exponentOf, exponentOf]
    omega
  have hdiv := div_positive h₁ h₂ (isExponent_exponentOf num) (isExponent_exponentOf den)
    (by rw [exponentOf, exponentOf]; omega) ht hbits (h.isMantissa numSmall denSmall) hrounded
  rw [ofNat_eq hnum numFits, ofNat_eq hden denFits, hdiv]
  simp only [hexponent]

/-- **Quotients.**  The quotient of two small natural numbers is the nearest multiple of the power
of two that gives it 53 bits. -/
lemma div_eq (hnum : 0 < num) (hden : 0 < den) (numSmall : num < 2 ^ 26) (denSmall : den < 2 ^ 26) :
    ∃ (s : Nat) (h : IsScale num den s),
      Float.ofNat num / Float.ofNat den =
        positive (roundHalfEven (num * 2 ^ s) den) (-(s : Int))
          (h.isMantissa numSmall denSmall).pos := by
  have h₁ := isMantissa_mantissaOf hnum (Nat.lt_trans numSmall (by decide))
  have h₂ := isMantissa_mantissaOf hden (Nat.lt_trans denSmall (by decide))
  have hlow₁ := h₁.low
  have hhigh₁ := h₁.high
  have hlow₂ := h₂.low
  have hhigh₂ := h₂.high
  have hpow : 0 < 2 ^ (52 - den.log2) := Nat.two_pow_pos _
  have hscaled : ∀ {s t : Nat}, 52 - num.log2 + 53 = s + (52 - den.log2) + t →
      num * 2 ^ (52 - den.log2) * 2 ^ s * 2 ^ t = mantissaOf num * 2 ^ 53 := by
    intro s t hs
    rw [mantissaOf, Nat.mul_assoc num (2 ^ (52 - num.log2)), ← Nat.pow_add, hs, Nat.mul_assoc,
      Nat.mul_assoc, ← Nat.pow_add, ← Nat.pow_add]
    congr 2
    omega
  rcases Nat.lt_or_ge (mantissaOf num) (mantissaOf den) with hlt | hge
  · have hs : 52 - num.log2 + 53 = 52 - num.log2 + 53 - (52 - den.log2) + (52 - den.log2) + 0 := by
      omega
    have hsame := hscaled hs
    have hscale : IsScale num den (52 - num.log2 + 53 - (52 - den.log2)) := by
      refine (IsScale.mul_iff hpow).mp ⟨?_, ?_⟩ <;> rw [← mantissaOf] <;> omega
    exact ⟨_, hscale, div_of_isScale hnum numSmall denSmall hscale (.inl rfl) hs⟩
  · have hs : 52 - num.log2 + 53 = 52 - num.log2 + 52 - (52 - den.log2) + (52 - den.log2) + 1 := by
      omega
    have hsame := hscaled hs
    have hscale : IsScale num den (52 - num.log2 + 52 - (52 - den.log2)) := by
      refine (IsScale.mul_iff hpow).mp ⟨?_, ?_⟩ <;> rw [← mantissaOf] <;> omega
    exact ⟨_, hscale, div_of_isScale hnum numSmall denSmall hscale (.inr rfl) hs⟩

/-- **Equal ratios.**  The quotient of two small numbers is that of their multiples. -/
lemma div_mul_mul {factor : Nat} (hnum : 0 < num) (hden : 0 < den) (hfactor : 0 < factor)
    (numSmall : num * factor < 2 ^ 26) (denSmall : den * factor < 2 ^ 26) :
    Float.ofNat (num * factor) / Float.ofNat (den * factor) =
      Float.ofNat num / Float.ofNat den := by
  obtain ⟨s, hs, hleft⟩ := div_eq (Nat.mul_pos hnum hfactor) (Nat.mul_pos hden hfactor)
    numSmall denSmall
  obtain ⟨t, ht, hright⟩ := div_eq hnum hden
    (Nat.lt_of_le_of_lt (Nat.le_mul_of_pos_right _ hfactor) numSmall)
    (Nat.lt_of_le_of_lt (Nat.le_mul_of_pos_right _ hfactor) denSmall)
  obtain rfl := ((IsScale.mul_iff hfactor).mp hs).unique ht
  rw [hleft, hright]
  simp only [Nat.mul_right_comm num factor, roundHalfEven_mul hfactor]

end Quotients

end CoverageEstimate.Decimal
