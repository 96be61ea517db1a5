/-
# Percentages in documents

A percentage is a number of hundredths, as a double.  It is written with the digits of these
hundredths, and the double that is read from them is the same one, since both are the quotient of
one ratio.

The percentages of reports are of this kind: no step of their computation is rounded past the whole
number that bounds it.
-/
import CoverageEstimate.Proofs.Decimal.Bounds
import CoverageEstimate.Proofs.Decimal.Hundredths
import CoverageEstimate.Proofs.Json.Fractions
import CoverageEstimate.Proofs.Json.Writing
import CoverageEstimate.Score

namespace CoverageEstimate

open Decimal Json

/-- The double is a number of hundredths of at most one hundred. -/
def IsPercentage (x : Float) : Prop := ∃ k ≤ 10000, x = Float.ofNat k / 100

namespace Percentage

/-- A power of ten with at most three zeros is the double of its number. -/
lemma powerOfTen_eq {places : Nat} (pos : 0 < places) (small : places ≤ 3) :
    powerOfTen places = Float.ofNat (10 ^ places) := by
  obtain rfl | rfl | rfl : places = 1 ∨ places = 2 ∨ places = 3 := by omega
  all_goals exact Float.toBits_inj.mp (by decide +kernel)

/-- A number with at most three places behind the point is read as a quotient. -/
lemma realOf?_places {n places : Nat} (pos : 0 < n) (small : n < 2 ^ 53) (hpos : 0 < places)
    (hplaces : places ≤ 3) : realOf? false n (-(places : Int)) =
      some (.real (Float.ofNat n / Float.ofNat (10 ^ places))) := by
  obtain ⟨p, rfl⟩ : ∃ p, places = p + 1 := Nat.exists_eq_succ_of_ne_zero (Nat.ne_of_gt hpos)
  have hexponent : -((p + 1 : Nat) : Int) = .negSucc p := rfl
  have hfits : p + 1 ≤ 308 := by omega
  rw [realOf?, hexponent, assemble?]
  simp only [divideByPower, hfits, if_true, powerOfTen_eq hpos hplaces, withSign,
    Bool.false_eq_true, if_false, Option.map_some, toFloat_toUInt64 pos small, ofNat_eq pos small]

/-- A decimal that is `k` hundredths is read as `k` hundredths. -/
lemma value?_ofDecimal {d : Scientific} {k : Nat} (h : d.IsHundredths k) (small : k ≤ 10000) :
    (Numeral.ofDecimal d).value? = some (.real (Float.ofNat k / 100)) := by
  have hpos := h.pos
  have hplaces := h.places
  have hvalue := h.value
  have hlimit : 2 ^ 53 ≤ greatestNatural := by decide
  -- the three ways to write the ratio: as tenths, as it is, and as thousandths
  have htenths {n : Nat} (hn : 0 < n) (hk : n * 10 = k) :
      realOf? false n (-1) = some (.real (Float.ofNat k / 100)) := by
    have hratio := @div_mul_mul n 10 10 hn (by decide) (by decide)
      (by omega) (by decide)
    rw [hk] at hratio
    exact (realOf?_places hn (by omega) (by decide) (by decide)).trans
      (congrArg (fun x => some (Number.real x)) hratio.symm)
  have hthousandths {n : Nat} (hn : 0 < n) (hk : k * 10 = n) :
      realOf? false n (-3) = some (.real (Float.ofNat k / 100)) := by
    have hratio := @div_mul_mul k 100 10 (by omega) (by decide)
      (by decide) (by omega) (by decide)
    rw [hk] at hratio
    exact (realOf?_places hn (by omega) (by decide) (by decide)).trans
      (congrArg (fun x => some (Number.real x)) hratio)
  rcases Int.lt_or_le d.exponent 0 with hneg | hwhole
  · have hzero : (d.exponent + 1).toNat = 0 := by omega
    have hdigits : d.digits ≤ 10 * k := by
      rw [← hvalue]
      exact Nat.le_mul_of_pos_right _ (Nat.pow_pos (by decide))
    rw [Numeral.value?_ofDecimal (by rw [hzero]; omega), if_neg (by omega)]
    obtain he | he | he : d.exponent = -3 ∨ d.exponent = -2 ∨ d.exponent = -1 := by omega
    all_goals rw [he] at hvalue ⊢
    · exact hthousandths hpos (by simpa [Nat.mul_comm] using hvalue.symm)
    · have hsame : d.digits = k := by
        have hten : d.digits * 10 = 10 * k := hvalue
        omega
      rw [hsame]
      exact realOf?_places (by omega) (by omega) (by decide) (by decide)
    · have hhundred : d.digits * 100 = 10 * k := hvalue
      exact htenths hpos (by omega)
  · have hpower : (d.exponent + 3).toNat = (d.exponent + 1).toNat + 2 := by omega
    have hten : d.digits * 10 ^ (d.exponent + 1).toNat * 10 = k := by
      rw [hpower, Nat.pow_add, ← Nat.mul_assoc] at hvalue
      omega
    rw [Numeral.value?_ofDecimal (by omega), if_pos hwhole]
    exact htenths (Nat.mul_pos hpos (Nat.pow_pos (by decide))) hten

/-- The leading digit of hundredths stands where no exponent is needed. -/
lemma lead_bounds {d : Scientific} {k : Nat} (h : d.IsHundredths k) (small : k ≤ 10000) :
    -5 ≤ d.lead ∧ d.lead < 16 := by
  have hpos := h.pos
  have hplaces := h.places
  have hvalue := h.value
  have hcountPos := digitCount_pos d.digits
  have hdigits : d.digits ≤ 10 * k := by
    rw [← hvalue]
    exact Nat.le_mul_of_pos_right _ (Nat.pow_pos (by decide))
  have hcount : digitCount d.digits ≤ 6 := digitCount_le (by decide) (by omega)
  have hexponent : (d.exponent + 3).toNat < 6 := by
    have hpower : 10 ^ (d.exponent + 3).toNat < 10 ^ 6 :=
      Nat.lt_of_le_of_lt (Nat.le_mul_of_pos_left _ hpos) (by omega)
    exact (Nat.pow_lt_pow_iff_right (by decide)).mp hpower
  rw [Scientific.lead]
  omega

/-- What is written for `k` hundredths is their decimal. -/
lemma write_eq {k s m : Nat} (h : IsNearest k s m) :
    ∃ d : Scientific, d.IsHundredths k ∧
      (Number.real (positive m (-(s : Int)) h.mantissa.pos)).write =
        (Numeral.ofDecimal d).unsignedText := by
  have hscale := h.scale_lt
  have hclass := ofFloat_positive h.mantissa (e := -(s : Int)) ⟨by omega, by omega⟩
  generalize hb : (m - 2 ^ 52 == 0 && decide ((-(s : Int) + 1075).toNat > 1)) = boundary at hclass
  have hboundary : boundary = true → m = 2 ^ 52 := by
    rintro rfl
    have hlow := h.mantissa.low
    simp only [Bool.and_eq_true, beq_iff_eq] at hb
    omega
  have hd := isHundredths_shortest h hboundary
  obtain ⟨hlow, hhigh⟩ := lead_bounds hd h.small
  have hzero : (m == 0) = false := by simpa using Nat.ne_of_gt h.mantissa.pos
  refine ⟨_, hd, ?_⟩
  rw [Numeral.unsignedText_ofDecimal hd.pos, Number.write]
  simp only [hclass, documentText, hzero, Bool.false_eq_true, if_false, signed, hlow, hhigh,
    decide_true, Bool.and_self, if_true, String.toList_ofList]

/-- Every percentage is written as a numeral that stands for it. -/
lemma isWritable {x : Float} (h : IsPercentage x) : (Number.real x).IsWritable := by
  obtain ⟨k, hk, rfl⟩ := h
  rcases Nat.eq_zero_or_pos k with rfl | hpos
  · refine ⟨⟨false, [0], some [0], none⟩, ?_, ?_, by decide +kernel⟩
    · exact Numeral.isProper_fraction ⟨by simp, by simp⟩ (by simp) ⟨by simp, by simp⟩
    · have hzero : (0 : Nat).toUInt64.toFloat / powerOfTen 1 = Float.ofNat 0 / 100 :=
        Float.toBits_inj.mp (by decide +kernel)
      exact (Numeral.value?_fraction (by decide)).trans
        (congrArg (fun x => some (Number.real x)) hzero)
  · obtain ⟨s, hs, hdiv⟩ := @div_eq k 100 hpos (by decide) (by omega) (by decide)
    have hnearest : IsNearest k s (roundHalfEven (k * 2 ^ s) 100) :=
      ⟨hs, hpos, hk, hs.isMantissa (by omega) (by decide), rfl⟩
    obtain ⟨d, hd, hwrite⟩ := write_eq hnearest
    refine ⟨.ofDecimal d, Numeral.isProper_ofDecimal d, value?_ofDecimal hd hk, ?_⟩
    have hquotient : Float.ofNat k / 100 = Float.ofNat k / Float.ofNat 100 := rfl
    rw [hquotient, hdiv, hwrite, Numeral.text_ofDecimal]

end Percentage

/-! ## Percentages of reports -/

lemma IsPercentage.within {x : Float} (h : IsPercentage x) : Within 100 105 x := by
  obtain ⟨k, hk, rfl⟩ := h
  exact (Within.ofNat (by omega)).div_ofNat (n := 100) (by decide) (by decide) (by decide)
    (by omega) (by decide)

lemma isPercentage_roundToHundredths {x : Float} {s : Nat} (h : Within 100 s x)
    (range : s ≤ 1000) : IsPercentage (roundToHundredths x) := by
  have hscaled : Within (100 * 100) s (x * Float.ofNat 100) :=
    h.mul_ofNat (by decide) (by decide) range (by decide)
  obtain ⟨k, hk, hround⟩ := hscaled.exists_roundAwayFromZero range (by decide)
  exact ⟨k, hk, congrArg (· / 100) hround⟩

/-- **Coverage of a file.**  The share of functions that are covered is a percentage. -/
theorem isPercentage_coveragePercentage {functions : List FunctionCoverage}
    (h : functions.length < 2 ^ 53) : IsPercentage (coveragePercentage functions) := by
  rw [coveragePercentage]
  split
  · exact ⟨0, by decide, Float.toBits_inj.mp (by decide +kernel)⟩
  · rename_i hempty
    have hpos : 0 < functions.length := List.length_pos_iff.mpr (by simpa using hempty)
    have hle : coveredCount functions ≤ functions.length := List.countP_le_length
    have hshare : Within 1 105
        (Float.ofNat (coveredCount functions) / Float.ofNat functions.length) :=
      (Within.ofNat (by omega)).div_ofNat hpos h (by decide) (by omega) (by decide)
    exact isPercentage_roundToHundredths
      (hshare.mul_ofNat (n := 100) (by decide) (by decide) (by decide) (by decide)) (by decide)

lemma within_foldl {percentages : List Float} (h : ∀ p ∈ percentages, IsPercentage p) {b : Nat}
    {x : Float} (hx : Within b 105 x) (small : b + 100 * percentages.length < 2 ^ 53) :
    Within (b + 100 * percentages.length) 105 (percentages.foldl (· + ·) x) := by
  induction percentages generalizing b x with
  | nil => exact hx
  | cons p rest ih =>
    obtain ⟨hp, hrest⟩ := List.forall_mem_cons.mp h
    rw [List.length_cons, Nat.mul_succ, Nat.add_comm _ 100, ← Nat.add_assoc] at small ⊢
    exact ih hrest (hx.add hp.within (by decide) (by omega)) small

/-- **Coverage of a project.**  The mean of percentages is a percentage. -/
theorem isPercentage_meanPercentage {percentages : List Float}
    (h : ∀ p ∈ percentages, IsPercentage p) (small : 100 * percentages.length < 2 ^ 53) :
    IsPercentage (meanPercentage percentages) := by
  rw [meanPercentage]
  cases percentages with
  | nil => exact ⟨0, by decide, Float.toBits_inj.mp (by decide +kernel)⟩
  | cons p rest =>
    obtain ⟨hp, hrest⟩ := List.forall_mem_cons.mp h
    rw [List.length_cons] at small
    have hsum : Within (100 + 100 * rest.length) 105 ((p :: rest).foldl (· + ·) (-0.0)) := by
      rw [List.foldl_cons, hp.within.negative_zero_add (by decide)]
      exact within_foldl hrest hp.within (by omega)
    have hmean : Within 100 158
        ((p :: rest).foldl (· + ·) (-0.0) / Float.ofNat (p :: rest).length) :=
      hsum.div_ofNat (by simp) (by simp; omega) (by decide) (by simp; omega) (by decide)
    exact isPercentage_roundToHundredths hmean (by decide)

end CoverageEstimate
