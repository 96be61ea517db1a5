/-
# Numerals of decimals

A decimal in positional notation is a numeral with a point: without places behind the point it has
one zero there, and without digits before the point it has a zero there.
-/
import CoverageEstimate.Proofs.Json.Numeral
import Mathlib.Algebra.Group.Nat.Defs

namespace CoverageEstimate.Json

open Decimal (Scientific)

/-! ## Digits -/

lemma digits_mul_pow {n : Nat} (pos : 0 < n) (zeros : Nat) :
    Decimal.digits (n * 10 ^ zeros) = Decimal.digits n ++ List.replicate zeros '0' := by
  induction zeros with
  | zero => simp
  | succ zeros ih =>
    have hpos : 0 < n * 10 ^ zeros := Nat.mul_pos pos (Nat.pow_pos (by decide))
    have happend := @Nat.toDigits_append_toDigits 10 (n * 10 ^ zeros) 0 (by decide)
      hpos (by decide)
    rw [Nat.pow_succ, ← Nat.mul_assoc, Nat.mul_comm _ 10, List.replicate_succ', ← List.append_assoc,
      ← ih]
    exact happend.symm

lemma digitsValue_append (front back : List Nat) :
    digitsValue (front ++ back) = back.foldl (fun n d => n * 10 + d) (digitsValue front) := by
  rw [digitsValue, digitsValue, List.foldl_append]

lemma digitsValue_zeros (zeros : Nat) (ds : List Nat) :
    digitsValue (List.replicate zeros 0 ++ ds) = digitsValue ds := by
  induction zeros with
  | zero => rfl
  | succ zeros ih => exact ih

lemma areDigits_zeros_append {ds : List Nat} (h : AreDigits ds) (zeros : Nat) :
    AreDigits (List.replicate zeros 0 ++ ds) where
  ne_nil := by simp [h.ne_nil]
  lt_ten := by
    intro d hd
    rcases List.mem_append.mp hd with hd | hd
    · rw [List.eq_of_mem_replicate hd]
      decide
    · exact h.lt_ten d hd

/-! ## Numerals with a point -/

namespace Numeral

/-- The value of a numeral with a point and without an exponent part. -/
lemma value?_fraction {whole fraction : List Nat}
    (limit : digitsValue (whole ++ fraction) ≤ greatestNatural) :
    (⟨false, whole, some fraction, none⟩ : Numeral).value? =
      realOf? false (digitsValue (whole ++ fraction)) (-(fraction.length : Int)) := by
  rw [digitsValue_append] at limit ⊢
  have hwhole : appendDigits 0 whole = (digitsValue whole, 0) :=
    appendDigits_of_le (Nat.le_trans (le_foldl_digits _ fraction) limit)
  have hfraction := appendDigits_of_le limit
  simp [value?, hwhole, hfraction, scaledValue?]

lemma isProper_fraction {whole fraction : List Nat} (hwhole : AreDigits whole)
    (hzero : ∀ d ds, whole ≠ 0 :: d :: ds) (hfraction : AreDigits fraction) :
    (⟨false, whole, some fraction, none⟩ : Numeral).IsProper where
  whole := hwhole
  no_zero_first := hzero
  fraction := by
    intro ds hds
    obtain rfl := Option.some.inj hds
    exact hfraction
  exponent := by simp

/-- The numeral of a positive decimal in positional notation. -/
def ofDecimal (s : Scientific) : Numeral :=
  let ds := decimalDigits s.digits
  let places := (-s.exponent).toNat
  if 0 ≤ s.exponent then
    ⟨false, decimalDigits (s.digits * 10 ^ s.exponent.toNat), some [0], none⟩
  else if ds.length ≤ places then
    ⟨false, [0], some (List.replicate (places - ds.length) 0 ++ ds), none⟩
  else ⟨false, ds.take (ds.length - places), some (ds.drop (ds.length - places)), none⟩

variable {s : Scientific}

lemma isProper_ofDecimal (s : Scientific) : (ofDecimal s).IsProper := by
  have hdigits := areDigits_decimalDigits s.digits
  rw [ofDecimal]
  split
  · exact isProper_fraction (areDigits_decimalDigits _) (decimalDigits_ne_zero_cons_cons _)
      ⟨by simp, by simp⟩
  · split
    · exact isProper_fraction ⟨by simp, by simp⟩ (by simp) (areDigits_zeros_append hdigits _)
    · rename_i hneg hlong
      refine isProper_fraction ⟨?_, fun d hd => hdigits.lt_ten d (List.mem_of_mem_take hd)⟩ ?_
        ⟨?_, fun d hd => hdigits.lt_ten d (List.mem_of_mem_drop hd)⟩
      · intro hnil
        have hlength := congrArg List.length hnil
        simp only [List.length_take, List.length_nil] at hlength
        omega
      · intro d ds htake
        have hwhole := List.take_append_drop
          ((decimalDigits s.digits).length - (-s.exponent).toNat) (decimalDigits s.digits)
        rw [htake] at hwhole
        exact decimalDigits_ne_zero_cons_cons s.digits d _ hwhole.symm
      · intro hnil
        have hlength := congrArg List.length hnil
        simp only [List.length_drop, List.length_nil] at hlength
        omega

lemma text_ofDecimal (s : Scientific) : (ofDecimal s).text = (ofDecimal s).unsignedText := by
  have hsign : (ofDecimal s).negative = false := by
    rw [ofDecimal]
    split
    · rfl
    · split <;> rfl
  rw [text, hsign]
  rfl

/-- The numeral is what is written for the decimal in a document. -/
lemma unsignedText_ofDecimal (pos : 0 < s.digits) :
    (ofDecimal s).unsignedText =
      if 0 ≤ s.exponent then s.positional ++ ".0".toList else s.positional := by
  have htext := digitText_decimalDigits s.digits
  have hlength : (decimalDigits s.digits).length = (Decimal.digits s.digits).length := by
    rw [← htext, digitText, List.length_map]
  have hpoint : ".0".toList = ['.', '0'] := rfl
  rw [ofDecimal, Scientific.positional, hpoint, ← hlength]
  split
  · have hzeros := digitText_decimalDigits (s.digits * 10 ^ s.exponent.toNat)
    rw [digits_mul_pow pos, digitText] at hzeros
    simp [unsignedText, hzeros, digitText, Nat.digitChar]
  · split
    · rename_i hshort
      rw [if_pos hshort, ← htext]
      simp [unsignedText, digitText, Nat.digitChar]
    · rename_i hlong
      rw [if_neg hlong, ← htext]
      simp [unsignedText, digitText, List.map_take, List.map_drop]

/-- The value of the numeral of a decimal. -/
lemma value?_ofDecimal (limit : s.digits * 10 ^ (s.exponent + 1).toNat ≤ greatestNatural) :
    (ofDecimal s).value? =
      if 0 ≤ s.exponent then realOf? false (s.digits * 10 ^ (s.exponent + 1).toNat) (-1)
      else realOf? false s.digits s.exponent := by
  have hvalue := digitsValue_decimalDigits s.digits
  rw [ofDecimal]
  split
  · have hten : digitsValue (decimalDigits (s.digits * 10 ^ s.exponent.toNat) ++ [0]) =
        s.digits * 10 ^ (s.exponent + 1).toNat := by
      have hpower : (s.exponent + 1).toNat = s.exponent.toNat + 1 := by omega
      rw [digitsValue_append, digitsValue_decimalDigits, hpower, Nat.pow_succ, ← Nat.mul_assoc]
      rfl
    rw [value?_fraction (by rwa [hten]), hten]
    rfl
  · rename_i hneg
    have hlimit : s.digits ≤ greatestNatural :=
      Nat.le_trans (Nat.le_mul_of_pos_right _ (Nat.pow_pos (by decide))) limit
    split
    · rename_i hshort
      have hzeros : digitsValue ([0] ++ (List.replicate
          ((-s.exponent).toNat - (decimalDigits s.digits).length) 0 ++ decimalDigits s.digits)) =
          s.digits := (digitsValue_zeros _ _).trans hvalue
      have hplaces : -((List.replicate ((-s.exponent).toNat - (decimalDigits s.digits).length) 0 ++
          decimalDigits s.digits).length : Int) = s.exponent := by
        rw [List.length_append, List.length_replicate]
        omega
      rw [value?_fraction (by rwa [hzeros]), hzeros, hplaces]
    · rename_i hlong
      have hwhole := List.take_append_drop
        ((decimalDigits s.digits).length - (-s.exponent).toNat) (decimalDigits s.digits)
      have hplaces : -(((decimalDigits s.digits).drop
          ((decimalDigits s.digits).length - (-s.exponent).toNat)).length : Int) = s.exponent := by
        rw [List.length_drop]
        omega
      rw [value?_fraction (by rwa [hwhole, hvalue]), hwhole, hvalue, hplaces]

end Numeral

end CoverageEstimate.Json
