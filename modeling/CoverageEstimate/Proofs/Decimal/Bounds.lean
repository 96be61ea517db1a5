/-
# Bounds of doubles

Rounding keeps a whole bound: a double cannot be rounded past a number that is a double itself.
What makes this simple is that the bits that are shifted out add at most one to the mantissa that
is left, and nothing if none of them is set (`IsAtMost`).  So nothing has to be known about how
halves are rounded.

The invariant for the operations is a bound together with a limit on the bits behind the point
(`Within`), which keeps the doubles away from the smallest ones.
-/
import CoverageEstimate.Proofs.Decimal.Quotient

namespace CoverageEstimate.Decimal

open Float.Model Float.Model.UnpackedFloat

/-! ## Rounding -/

/-- The mantissa is at most `b`, and so is whatever its other bits stand for. -/
def IsAtMost (b : Nat) (em : ExtendedMantissa) : Prop :=
  em.mantissa + (if em.roundBit || em.stickyBit then 1 else 0) ≤ b

section Rounding

variable {b k mantissa shift : Nat} {em : ExtendedMantissa} {accuracy : Accuracy}

lemma isAtMost_exact (h : mantissa ≤ b) :
    IsAtMost b (ExtendedMantissa.ofMantissaAndAccuracy mantissa .exact) := h

lemma IsAtMost.roundedMantissa_le (h : IsAtMost b em) : em.roundedMantissa ≤ b := by
  obtain ⟨m, round, sticky⟩ := em
  rw [IsAtMost] at h
  rw [roundedMantissa_eq]
  cases round <;> cases sticky <;> simp at h ⊢ <;> omega

lemma mantissa_le_roundedMantissa (em : ExtendedMantissa) : em.mantissa ≤ em.roundedMantissa := by
  obtain ⟨m, round, sticky⟩ := em
  rw [roundedMantissa_eq]
  cases round <;> cases sticky <;> simp

lemma roundedMantissa_le (em : ExtendedMantissa) : em.roundedMantissa ≤ em.mantissa + 1 := by
  refine IsAtMost.roundedMantissa_le ?_
  rw [IsAtMost]
  split <;> omega

lemma isAtMost_quotient {num den : Nat} (h : num ≤ b * den) :
    IsAtMost b (ExtendedMantissa.ofMantissaAndAccuracy (num / den)
      (accuracyOfFraction (num % den) den)) := by
  have hnum := Nat.div_add_mod num den
  have hle : num / den ≤ b := Nat.div_le_of_le_mul (by rwa [Nat.mul_comm])
  rw [accuracyOfFraction]
  split
  · exact isAtMost_exact hle
  · rename_i hrest
    -- where something is left over, the quotient is below the bound
    have hlt : num / den + 1 ≤ b := by
      refine Nat.lt_of_le_of_ne hle fun heq => hrest ?_
      rw [heq, Nat.mul_comm] at hnum
      omega
    cases compare (2 * (num % den)) den <;> exact hlt

/-- A bound that is a multiple of what is shifted out stays one. -/
lemma IsAtMost.shiftRight (h : IsAtMost (b * 2 ^ shift) em) : IsAtMost b (em >>> shift) := by
  induction shift generalizing b with
  | zero => simpa [HShiftRight.hShiftRight, Nat.repeat] using h
  | succ shift ih =>
    have hhalf : IsAtMost (2 * b) (em >>> shift) := ih (by
      rwa [Nat.pow_succ, Nat.mul_comm (2 ^ shift), ← Nat.mul_assoc, Nat.mul_comm b] at h)
    rw [shift_succ]
    generalize em >>> shift = half at hhalf
    obtain ⟨m, round, sticky⟩ := half
    rw [IsAtMost] at hhalf ⊢
    simp only [ExtendedMantissa.shiftRightOne]
    rcases Nat.mod_two_eq_zero_or_one m with hm | hm <;>
      cases round <;> cases sticky <;> simp [hm] at hhalf ⊢ <;> omega

lemma mantissa_shiftRight (em : ExtendedMantissa) (shift : Nat) :
    (em >>> shift).mantissa = em.mantissa / 2 ^ shift := by
  induction shift with
  | zero => simp [HShiftRight.hShiftRight, Nat.repeat]
  | succ shift ih =>
    rw [shift_succ, ExtendedMantissa.shiftRightOne, ih, Nat.div_div_eq_div_mul, Nat.pow_succ]

lemma mantissa_ofMantissaAndAccuracy (mantissa : Nat) (accuracy : Accuracy) :
    (ExtendedMantissa.ofMantissaAndAccuracy mantissa accuracy).mantissa = mantissa := by
  cases accuracy with
  | exact => rfl
  | inexact o => cases o <;> rfl

/-- Rounding may carry into another bit, and then the mantissa is a power of two. -/
lemma roundWithAccuracy_carry {e : Int} (bits : mantissa.log2 = 52 + shift)
    (he : -1074 ≤ e + shift)
    (rounded : (ExtendedMantissa.ofMantissaAndAccuracy mantissa accuracy >>> shift).roundedMantissa
      = 2 ^ 53) :
    roundWithAccuracy .binary64 .positive mantissa e accuracy =
      .finite .positive (2 ^ 52) (e + shift + 1) (Nat.two_pow_pos 52) := by
  have hagain := @shiftToTargetExponent_of_log2 (2 ^ 53) (e + shift) .exact 1 (by decide)
    (by omega)
  have hhalf : (ExtendedMantissa.ofMantissaAndAccuracy (2 ^ 53) .exact >>> 1).mantissa = 2 ^ 52 :=
    rfl
  rw [roundWithAccuracy, shiftToTargetExponent_of_log2 bits he]
  simp only [rounded, hagain, hhalf]
  simp

/-- What has bits enough is only rounded. -/
lemma normalize_of_le (h : 2 ^ 52 ≤ mantissa) (range : k ≤ 1074) :
    normalize .binary64 (mantissa : Int) (-(k : Int)) .positive =
      roundWithAccuracy .binary64 .positive mantissa (-(k : Int)) .exact := by
  have hpos : 0 < mantissa := Nat.lt_of_lt_of_le (by decide) h
  have hlog : 52 ≤ mantissa.log2 := (Nat.le_log2 (Nat.ne_of_gt hpos)).mpr h
  have hcompare : compare (mantissa : Int) 0 = .gt :=
    Int.compare_eq_gt.mpr (Int.natCast_pos.mpr hpos)
  have htarget : (-(k : Int) - Format.binary64.targetExponent
      (totalExponent mantissa (-(k : Int)))).toNat = 0 := by
    change (-(k : Int) - max ((mantissa.log2 : Int) + 1 + -(k : Int) - (53 : Nat))
      (-1074)).toNat = 0
    omega
  rw [UnpackedFloat.normalize, hcompare]
  simp only [UnpackedFloat.round, decreaseExponent, htarget, Int.toNat_natCast, Nat.shiftLeft_zero]
  simp

/-- A mantissa is rounded to 53 bits, or to the first number with one bit more. -/
lemma roundedMantissa_bounds (bits : mantissa.log2 = 52 + shift) :
    2 ^ 52 ≤ (ExtendedMantissa.ofMantissaAndAccuracy mantissa accuracy >>> shift).roundedMantissa ∧
      (ExtendedMantissa.ofMantissaAndAccuracy mantissa accuracy >>> shift).roundedMantissa ≤
        2 ^ 53 := by
  have hne : mantissa ≠ 0 := by
    rintro rfl
    simp at bits
    omega
  obtain ⟨hlow, hhigh⟩ := (Nat.log2_eq_iff hne).mp bits
  have hfloorLow : 2 ^ 52 ≤ mantissa / 2 ^ shift := by
    rwa [Nat.le_div_iff_mul_le (Nat.two_pow_pos shift), ← Nat.pow_add]
  have hfloorHigh : mantissa / 2 ^ shift < 2 ^ 53 := by
    rw [Nat.div_lt_iff_lt_mul (Nat.two_pow_pos shift), ← Nat.pow_add]
    rwa [Nat.add_right_comm] at hhigh
  have hmantissa : (ExtendedMantissa.ofMantissaAndAccuracy mantissa accuracy >>> shift).mantissa =
      mantissa / 2 ^ shift := by
    rw [mantissa_shiftRight, mantissa_ofMantissaAndAccuracy]
  rw [← hmantissa] at hfloorLow hfloorHigh
  exact ⟨Nat.le_trans hfloorLow (mantissa_le_roundedMantissa _),
    Nat.le_trans (roundedMantissa_le _) hfloorHigh⟩

/-- Where a bound has 53 bits before the point, no more bits are shifted out than stand behind
it. -/
lemma shift_le_of_le (bits : mantissa.log2 = 52 + shift) (small : b < 2 ^ 53)
    (h : mantissa ≤ b * 2 ^ k) : shift ≤ k := by
  have hne : mantissa ≠ 0 := by
    rintro rfl
    simp at bits
    omega
  obtain ⟨hlow, -⟩ := (Nat.log2_eq_iff hne).mp bits
  refine Nat.le_of_not_lt fun hlt => ?_
  have hpow : 2 ^ (53 + k) ≤ 2 ^ (52 + shift) := Nat.pow_le_pow_right (by decide) (by omega)
  have hmul := Nat.mul_lt_mul_of_pos_right small (Nat.two_pow_pos k)
  rw [Nat.pow_add] at hpow
  omega

/-- **Rounding keeps whole bounds.**  What is at most `b` before the rounding is at most `b` behind
it, and no bits are added below. -/
lemma exists_roundWithAccuracy (bits : mantissa.log2 = 52 + shift) (range : k ≤ shift + 1074)
    (small : b < 2 ^ 53)
    (h : IsAtMost (b * 2 ^ k) (ExtendedMantissa.ofMantissaAndAccuracy mantissa accuracy)) :
    ∃ (m t : Nat) (hm : IsMantissa m), t + shift ≤ k ∧ m ≤ b * 2 ^ t ∧
      roundWithAccuracy .binary64 .positive mantissa (-(k : Int)) accuracy =
        .finite .positive m (-(t : Int)) hm.pos := by
  have hle : mantissa ≤ b * 2 ^ k := by
    rw [IsAtMost, mantissa_ofMantissaAndAccuracy] at h
    omega
  obtain ⟨t, rfl⟩ := Nat.exists_eq_add_of_le' (shift_le_of_le bits small hle)
  rw [Nat.pow_add, ← Nat.mul_assoc] at h
  have hbound := h.shiftRight.roundedMantissa_le
  obtain ⟨hlow, hhigh⟩ := @roundedMantissa_bounds mantissa shift accuracy bits
  generalize hrounded : (ExtendedMantissa.ofMantissaAndAccuracy mantissa accuracy >>>
    shift).roundedMantissa = r at hbound hlow hhigh
  rcases Nat.lt_or_eq_of_le hhigh with hlt | rfl
  · have hround := roundWithAccuracy_eq (e := -((t + shift : Nat) : Int)) bits (by omega)
      ⟨hlow, hlt⟩ hrounded
    have hexponent : -((t + shift : Nat) : Int) + shift = -(t : Int) := by omega
    refine ⟨r, t, ⟨hlow, hlt⟩, Nat.le_refl _, hbound, ?_⟩
    rw [hround]
    simp only [hexponent]
  · -- the carry takes up one of the bits behind the point, and there are some
    have hround := roundWithAccuracy_carry (e := -((t + shift : Nat) : Int)) bits (by omega)
      hrounded
    obtain ⟨t, rfl⟩ : ∃ n, t = n + 1 := by
      refine Nat.exists_eq_succ_of_ne_zero fun hzero => ?_
      rw [hzero] at hbound
      omega
    have hexponent : -((t + 1 + shift : Nat) : Int) + shift + 1 = -(t : Int) := by omega
    refine ⟨2 ^ 52, t, ⟨Nat.le_refl _, by decide⟩, by omega, ?_, ?_⟩
    · rw [Nat.pow_succ 2 t, ← Nat.mul_assoc] at hbound
      omega
    · rw [hround]
      simp only [hexponent]

end Rounding

/-! ## Arithmetic -/

lemma unpack_zero : (0 : Float).toModel.unpack = .zero .positive := rfl

lemma isExponent_neg {t : Nat} (h : t ≤ 1074) : IsExponent (-(t : Int)) := ⟨by omega, by omega⟩

lemma exists_log2_eq {n bits : Nat} (h : 2 ^ bits ≤ n) : ∃ shift, n.log2 = bits + shift := by
  have hne : n ≠ 0 := Nat.ne_of_gt (Nat.lt_of_lt_of_le (Nat.two_pow_pos bits) h)
  exact Nat.exists_eq_add_of_le ((Nat.le_log2 hne).mpr h)

/-- The double is zero, or positive and at most `b`, with at most `s` bits behind the point. -/
inductive Within (b s : Nat) : Float → Prop
  | ofZero : Within b s 0
  | ofPositive {m t : Nat} (hm : IsMantissa m) (scale : t ≤ s) (le : m ≤ b * 2 ^ t) :
      Within b s (positive m (-(t : Int)) hm.pos)

namespace Within

variable {b c s t m : Nat} {x y : Float}

lemma mono {b' s' : Nat} (h : Within b s x) (hb : b ≤ b') (hs : s ≤ s') : Within b' s' x := by
  cases h with
  | ofZero => exact .ofZero
  | ofPositive hm scale le =>
    exact .ofPositive hm (Nat.le_trans scale hs) (Nat.le_trans le (Nat.mul_le_mul_right _ hb))

/-- The double that is rounded to is within the bounds of what is rounded. -/
lemma of_roundWithAccuracy {k mantissa shift : Nat} {accuracy : Accuracy}
    (bits : mantissa.log2 = 52 + shift) (range : k ≤ s + shift) (deep : s ≤ 1074)
    (small : b < 2 ^ 53)
    (h : IsAtMost (b * 2 ^ k) (ExtendedMantissa.ofMantissaAndAccuracy mantissa accuracy)) :
    Within b s ⟨.pack (roundWithAccuracy .binary64 .positive mantissa (-(k : Int)) accuracy)⟩ := by
  obtain ⟨m, t, hm, hscale, hle, hround⟩ := exists_roundWithAccuracy bits (by omega) small h
  rw [hround]
  exact .ofPositive hm (by omega) hle

/-- The product of two doubles is at most the product of their bounds. -/
lemma mul (h : Within b s x) (hm : IsMantissa m) (le : m ≤ c * 2 ^ t) (small : b * c < 2 ^ 53)
    (range : s + t ≤ 1074) : Within (b * c) (s + t - 52) (x * positive m (-(t : Int)) hm.pos) := by
  rw [mul_unpacked, unpack_positive hm (isExponent_neg (by omega))]
  cases h with
  | ofZero =>
    rw [unpack_zero]
    exact .ofZero
  | @ofPositive n u hn scale le' =>
    rw [unpack_positive hn (isExponent_neg (by omega)), UnpackedFloat.mul]
    have hlow : 2 ^ (52 + 52) ≤ n * m := by
      rw [Nat.pow_add]
      exact Nat.mul_le_mul hn.low hm.low
    obtain ⟨shift, hbits⟩ := exists_log2_eq hlow
    have hexponent : -(u : Int) + -(t : Int) = -((u + t : Nat) : Int) := by omega
    have hbound : n * m ≤ b * c * 2 ^ (u + t) := by
      rw [Nat.pow_add, Nat.mul_mul_mul_comm]
      exact Nat.mul_le_mul le' le
    rw [hexponent]
    rw [Nat.add_assoc] at hbits
    exact of_roundWithAccuracy hbits (by omega) (by omega) small (isAtMost_exact hbound)

/-- A quotient is at most `c` when the dividend is at most `c` times the divisor. -/
lemma div (h : Within b s x) (hm : IsMantissa m) (ht : t ≤ 52) (range : s ≤ 1000)
    (le : b * 2 ^ t ≤ c * m) (small : c < 2 ^ 53) :
    Within c (s + 53) (x / positive m (-(t : Int)) hm.pos) := by
  cases h with
  | ofZero =>
    rw [div_unpacked, unpack_positive hm (isExponent_neg (by omega)), unpack_zero]
    exact .ofZero
  | @ofPositive n u hn scale le' =>
    have hpow : 2 ^ t * 2 ^ (u + (53 - t)) = 2 ^ u * 2 ^ 53 := by
      rw [← Nat.pow_add, ← Nat.pow_add]
      congr 1
      omega
    have hle : n * 2 ^ 53 ≤ c * 2 ^ (u + (53 - t)) * m := by
      calc n * 2 ^ 53 ≤ b * 2 ^ u * 2 ^ 53 := Nat.mul_le_mul_right _ le'
        _ = b * 2 ^ t * 2 ^ (u + (53 - t)) := by rw [Nat.mul_assoc, ← hpow, ← Nat.mul_assoc]
        _ ≤ c * m * 2 ^ (u + (53 - t)) := Nat.mul_le_mul_right _ le
        _ = c * 2 ^ (u + (53 - t)) * m := Nat.mul_right_comm _ _ _
    have hquotient : 2 ^ 52 ≤ n * 2 ^ 53 / m := by
      rw [Nat.le_div_iff_mul_le hm.pos]
      have hlow := hn.low
      have hhigh := hm.high
      omega
    obtain ⟨shift, hbits⟩ := exists_log2_eq hquotient
    have hexponent : -(u : Int) - -(t : Int) - 53 = -((u + (53 - t) : Nat) : Int) := by omega
    rw [div_eq_round hn hm (isExponent_neg (by omega)) (isExponent_neg (by omega)) (by omega),
      hexponent]
    exact of_roundWithAccuracy hbits (by omega) (by omega) small (isAtMost_quotient hle)

lemma zero_add (h : Within b s x) (range : s ≤ 1074) : 0 + x = x := by
  cases h with
  | ofZero => rfl
  | ofPositive hm scale le =>
    rw [add_unpacked, unpack_zero, unpack_positive hm (isExponent_neg (by omega))]
    rfl

lemma add_zero (h : Within b s x) (range : s ≤ 1074) : x + 0 = x := by
  cases h with
  | ofZero => rfl
  | ofPositive hm scale le =>
    rw [add_unpacked, unpack_zero, unpack_positive hm (isExponent_neg (by omega))]
    rfl

lemma negative_zero_add (h : Within b s x) (range : s ≤ 1074) : -0.0 + x = x := by
  have hzero : (-0.0 : Float).toModel.unpack = .zero .negative := rfl
  cases h with
  | ofZero => rfl
  | ofPositive hm scale le =>
    rw [add_unpacked, hzero, unpack_positive hm (isExponent_neg (by omega))]
    rfl

/-- The sum of two doubles is at most the sum of their bounds. -/
lemma add (h : Within b s x) (h' : Within c s y) (range : s ≤ 1074) (small : b + c < 2 ^ 53) :
    Within (b + c) s (x + y) := by
  cases h with
  | ofZero =>
    rw [h'.zero_add range]
    exact h'.mono (Nat.le_add_left c b) (Nat.le_refl s)
  | @ofPositive n u hn scale le =>
    cases h' with
    | ofZero =>
      rw [(ofPositive hn scale le).add_zero range]
      exact .ofPositive hn scale (Nat.le_trans le (Nat.mul_le_mul_right _ (Nat.le_add_right b c)))
    | @ofPositive m t hm scale' le' =>
      obtain ⟨k, hk⟩ : ∃ k, k = max u t := ⟨_, rfl⟩
      have hmin : min (-(u : Int)) (-(t : Int)) = -(k : Int) := by omega
      have hleft : (-(u : Int) - -(k : Int)).toNat = k - u := by omega
      have hright : (-(t : Int) - -(k : Int)).toNat = k - t := by omega
      have hn' : n * 2 ^ (k - u) ≤ b * 2 ^ k := by
        have hmul := Nat.mul_le_mul_right (2 ^ (k - u)) le
        rwa [Nat.mul_assoc, ← Nat.pow_add, Nat.add_sub_cancel' (by omega)] at hmul
      have hm' : m * 2 ^ (k - t) ≤ c * 2 ^ k := by
        have hmul := Nat.mul_le_mul_right (2 ^ (k - t)) le'
        rwa [Nat.mul_assoc, ← Nat.pow_add, Nat.add_sub_cancel' (by omega)] at hmul
      have hlow : 2 ^ 52 ≤ n * 2 ^ (k - u) + m * 2 ^ (k - t) := by
        have hscaled := Nat.le_mul_of_pos_right n (Nat.two_pow_pos (k - u))
        have hmantissa := hn.low
        omega
      obtain ⟨shift, hbits⟩ := exists_log2_eq hlow
      have hsum : n * 2 ^ (k - u) + m * 2 ^ (k - t) ≤ (b + c) * 2 ^ k := by
        rw [Nat.add_mul]
        exact Nat.add_le_add hn' hm'
      rw [add_unpacked, unpack_positive hn (isExponent_neg (by omega)),
        unpack_positive hm (isExponent_neg (by omega)), UnpackedFloat.add]
      simp only [hmin, decreaseExponent, hleft, hright, Nat.shiftLeft_eq, Sign.apply,
        ← Int.natCast_add, normalize_of_le hlow (show k ≤ 1074 by omega)]
      exact of_roundWithAccuracy hbits (by omega) range small (isAtMost_exact hsum)

/-! ## Natural numbers -/

section Naturals

variable {n : Nat}

lemma ofNat (hn : n < 2 ^ 53) : Within n 52 (Float.ofNat n) := by
  rcases Nat.eq_zero_or_pos n with rfl | pos
  · exact .ofZero
  · rw [ofNat_eq pos hn]
    exact .ofPositive (isMantissa_mantissaOf pos hn) (Nat.sub_le _ _) (Nat.le_refl _)

/-- The product with a natural number needs no more bits behind the point. -/
lemma mul_ofNat (h : Within b s x) (pos : 0 < n) (hn : n < 2 ^ 53) (range : s ≤ 1000)
    (small : b * n < 2 ^ 53) : Within (b * n) s (x * Float.ofNat n) := by
  rw [ofNat_eq pos hn]
  exact (h.mul (t := 52 - n.log2) (isMantissa_mantissaOf pos hn) (Nat.le_refl _) small
    (by omega)).mono (Nat.le_refl _) (by omega)

lemma div_ofNat (h : Within b s x) (pos : 0 < n) (hn : n < 2 ^ 53) (range : s ≤ 1000)
    (le : b ≤ c * n) (small : c < 2 ^ 53) : Within c (s + 53) (x / Float.ofNat n) := by
  rw [ofNat_eq pos hn]
  refine h.div (t := 52 - n.log2) (isMantissa_mantissaOf pos hn) (Nat.sub_le _ _) range ?_ small
  rw [mantissaOf, ← Nat.mul_assoc]
  exact Nat.mul_le_mul_right _ le

end Naturals

/-- A double within a bound is rounded to a natural number within it. -/
lemma exists_roundAwayFromZero (h : Within b s x) (range : s ≤ 1000) (small : b < 2 ^ 52) :
    ∃ k ≤ b, roundAwayFromZero x = Float.ofNat k := by
  cases h with
  | ofZero => exact ⟨0, Nat.zero_le b, Float.toBits_inj.mp (by decide +kernel)⟩
  | @ofPositive m t hm scale le =>
    have hexponent : ¬(0 : Int) ≤ -(t : Int) := by
      intro hle
      obtain rfl : t = 0 := by omega
      have hlow := hm.low
      omega
    have hclass := ofFloat_positive hm (isExponent_neg (t := t) (by omega))
    refine ⟨roundHalfUp m (2 ^ t), ?_, ?_⟩
    · have hpos : 0 < 2 ^ t := Nat.two_pow_pos t
      have hnext : b.succ * (2 * 2 ^ t) = 2 * (b * 2 ^ t) + 2 * 2 ^ t := by
        rw [Nat.succ_mul, Nat.mul_left_comm]
      refine Nat.le_of_lt_succ ((Nat.div_lt_iff_lt_mul (by omega)).mpr ?_)
      omega
    · have hdown : (- -(t : Int)).toNat = t := by omega
      rw [roundAwayFromZero, hclass]
      simp only [Binary.fraction, hexponent, hdown, if_false, Bool.false_eq_true]
      rfl

end Within

end CoverageEstimate.Decimal
