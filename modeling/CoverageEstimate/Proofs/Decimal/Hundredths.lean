/-
# The digits of hundredths

A double that is nearest to a number of hundredths is printed as that number: the decimals that
round to the double lie so close together that the number of hundredths is the only one among them
with three places at most (`eq_of_holds`), so whichever digits are found first are its digits.

All of this is about the hundredths up to one hundred, with 53 bits of which at least 46 stand
behind the point.
-/
import CoverageEstimate.Decimal.Shortest
import CoverageEstimate.Proofs.Decimal.Quotient

namespace CoverageEstimate.Decimal

/-- The decimal is `k` hundredths. -/
structure Scientific.IsHundredths (d : Scientific) (k : Nat) : Prop where
  pos : 0 < d.digits
  places : -3 ≤ d.exponent
  value : d.digits * 10 ^ (d.exponent + 3).toNat = 10 * k

/-! ## Parts of the search -/

/-- What is close to a number of units is rounded to it. -/
lemma roundHalfEven_eq {num den r : Nat} (below : 2 * num < 2 * (r * den) + den)
    (above : 2 * (r * den) < 2 * num + den) : roundHalfEven num den = r := by
  have hpos : 0 < den := by omega
  obtain ⟨hlow, hhigh⟩ := roundHalfEven_near num hpos
  generalize roundHalfEven num den = t at hlow hhigh
  rw [Nat.add_mul, Nat.one_mul, Nat.mul_assoc] at hlow
  rw [Nat.mul_assoc] at hhigh
  refine Nat.le_antisymm (Nat.le_of_not_lt fun hlt => ?_) (Nat.le_of_not_lt fun hlt => ?_)
  · have hstep := Nat.mul_le_mul_right den hlt
    rw [Nat.succ_mul] at hstep
    omega
  · have hstep := Nat.mul_le_mul_right den hlt
    rw [Nat.succ_mul] at hstep
    omega

/-- What is printed for an interval lies in it. -/
lemma holds_of_onGrid? {i : Interval} {exponent : Int} {d : Nat}
    (h : i.onGrid? exponent = some d) : 0 < d ∧ i.holds d exponent = true := by
  have htwo : ∀ near other : Nat,
      (if 0 < near && i.holds near exponent then some near
        else if 0 < other && i.holds other exponent then some other else none) = some d →
      0 < d ∧ i.holds d exponent = true := by
    intro near other h
    split at h
    · rename_i hnear
      obtain rfl := Option.some.inj h
      simpa using hnear
    · split at h
      · rename_i hother
        obtain rfl := Option.some.inj h
        simpa using hother
      · simp at h
  exact htwo _ _ h

/-- The first number of a range with a result is not beyond any other. -/
lemma findSome?_range {α : Type} {f : Nat → Option α} {n bound : Nat} (hn : n < bound)
    (h : (f n).isSome = true) :
    ∃ first ≤ n, ∃ a, f first = some a ∧ (List.range bound).findSome? f = some a := by
  induction bound with
  | zero => exact absurd hn (Nat.not_lt_zero n)
  | succ bound ih =>
    rw [List.range_succ, List.findSome?_append]
    rcases Nat.lt_or_ge n bound with hlt | hge
    · obtain ⟨first, hfirst, a, ha, hfound⟩ := ih hlt
      exact ⟨first, hfirst, a, ha, by rw [hfound, Option.some_or]⟩
    · obtain rfl : n = bound := by omega
      cases hfound : (List.range n).findSome? f with
      | some a =>
        obtain ⟨first, hfirst, ha⟩ := List.exists_of_findSome?_eq_some hfound
        exact ⟨first, Nat.le_of_lt (List.mem_range.mp hfirst), a, ha, Option.some_or⟩
      | none =>
        obtain ⟨a, ha⟩ := Option.isSome_iff_exists.mp h
        refine ⟨n, Nat.le_refl n, a, ha, ?_⟩
        rw [Option.none_or, List.findSome?_cons, ha]

/-- Zeros at the end of the digits go into the exponent. -/
lemma isHundredths_normalize {k : Nat} (fuel : Nat) {d : Nat} {e : Int}
    (h : Scientific.IsHundredths ⟨d, e⟩ k) : (Scientific.normalize fuel d e).IsHundredths k := by
  induction fuel generalizing d e with
  | zero => exact h
  | succ fuel ih =>
    rw [Scientific.normalize]
    split
    · rename_i hzero
      have hpos := h.pos
      have hplaces := h.places
      have hvalue := h.value
      simp only [beq_iff_eq] at hzero hpos hplaces hvalue
      obtain ⟨c, rfl⟩ : ∃ c, d = 10 * c := ⟨d / 10, by omega⟩
      have hpower : (e + 1 + 3).toNat = (e + 3).toNat + 1 := by omega
      refine ih ⟨by dsimp only; omega, by dsimp only; omega, ?_⟩
      dsimp only
      rw [hpower, Nat.pow_succ, Nat.mul_div_cancel_left c (by decide), ← hvalue]
      rw [Nat.mul_comm 10 c, Nat.mul_assoc, Nat.mul_comm 10]
    · exact h

lemma digitCount_le {n places : Nat} (pos : 0 < places) (h : n < 10 ^ places) :
    digitCount n ≤ places := (Nat.length_toDigits_le_iff (by decide) pos).mpr h

lemma digitCount_pos (n : Nat) : 0 < digitCount n := Nat.length_toDigits_pos

/-! ## The double nearest to a number of hundredths -/

section Nearest

variable {k s m : Nat}

/-- The mantissa of the double that is nearest to `k` hundredths, with `s` bits behind the point. -/
structure IsNearest (k s m : Nat) : Prop where
  scale : IsScale k 100 s
  pos : 0 < k
  small : k ≤ 10000
  mantissa : IsMantissa m
  rounded : roundHalfEven (k * 2 ^ s) 100 = m

/-- The interval of the double. -/
def nearestInterval (s m : Nat) (below : Nat) : Interval :=
  ⟨4 * m - below, 4 * m, 4 * m + 2, 4 * 2 ^ s, m % 2 == 0⟩

/-- A fraction on a grid of thousandths or a coarser one, in thousandths. -/
lemma scale_thousandths {e : Int} (places : -3 ≤ e) (num den : Nat) :
    ∃ factor, (scale num den e).1 * factor = num * 1000 ∧
      ∀ d, d * (scale num den e).2 * factor = d * 10 ^ (e + 3).toNat * den := by
  rcases Int.lt_or_le e 0 with hneg | hpos
  · have hpower : (-e).toNat + (e + 3).toNat = 3 := by omega
    refine ⟨10 ^ (e + 3).toNat, ?_, fun d => ?_⟩
    · rw [scale, if_neg (by omega), Nat.pow_eq, Nat.mul_assoc, ← Nat.pow_add, hpower]
    · rw [scale, if_neg (by omega), Nat.mul_right_comm]
  · have hpower : (e + 3).toNat = e.toNat + 3 := by omega
    refine ⟨1000, ?_, fun d => ?_⟩
    · rw [scale, if_pos hpos]
    · rw [scale, if_pos hpos, hpower, Nat.pow_eq, Nat.pow_add, Nat.mul_comm den, ← Nat.mul_assoc,
        Nat.mul_right_comm _ den, Nat.mul_assoc d]

/-- What lies in the interval, counted in thousandths. -/
lemma holds_bounds {below d : Nat} {e : Int} (places : -3 ≤ e)
    (h : (nearestInterval s m below).holds d e = true) :
    (4 * m - below) * 1000 ≤ 4 * (d * 10 ^ (e + 3).toNat * 2 ^ s) ∧
      4 * (d * 10 ^ (e + 3).toNat * 2 ^ s) ≤ (4 * m + 2) * 1000 := by
  have hweak : (scale (4 * m - below) (4 * 2 ^ s) e).1 ≤
      d * (scale (4 * m - below) (4 * 2 ^ s) e).2 ∧
      d * (scale (4 * m + 2) (4 * 2 ^ s) e).2 ≤ (scale (4 * m + 2) (4 * 2 ^ s) e).1 := by
    rw [nearestInterval, Interval.holds] at h
    dsimp only at h
    split at h
    · simpa using h
    · simp only [Bool.and_eq_true, decide_eq_true_eq] at h
      exact ⟨Nat.le_of_lt h.1, Nat.le_of_lt h.2⟩
  obtain ⟨f, hlow, hlowDen⟩ := scale_thousandths places (4 * m - below) (4 * 2 ^ s)
  obtain ⟨g, hhigh, hhighDen⟩ := scale_thousandths places (4 * m + 2) (4 * 2 ^ s)
  have hbelow := Nat.mul_le_mul_right f hweak.1
  have habove := Nat.mul_le_mul_right g hweak.2
  rw [hlow, hlowDen, Nat.mul_left_comm] at hbelow
  rw [hhigh, hhighDen, Nat.mul_left_comm] at habove
  exact ⟨hbelow, habove⟩

namespace IsNearest

lemma le_scale (h : IsNearest k s m) : 46 ≤ s := by
  refine Nat.le_of_not_lt fun hs => ?_
  have hpow : 2 ^ s ≤ 2 ^ 45 := Nat.pow_le_pow_right (by decide) (Nat.le_of_lt_succ hs)
  have hmul := Nat.mul_le_mul h.small hpow
  have hlow := h.scale.low
  omega

lemma scale_lt (h : IsNearest k s m) : s < 60 := by
  refine Nat.lt_of_not_le fun hs => ?_
  have hpow : 2 ^ 60 ≤ 2 ^ s := Nat.pow_le_pow_right (by decide) hs
  have hmul := Nat.mul_le_mul h.pos hpow
  have hhigh := h.scale.high
  omega

/-- The double is nearer to `k` hundredths than half a unit: a tie would split the odd divisor of
one hundred. -/
lemma near (h : IsNearest k s m) :
    2 * (k * 2 ^ s) < 200 * m + 100 ∧ 200 * m < 2 * (k * 2 ^ s) + 100 := by
  obtain ⟨hlow, hhigh⟩ := @roundHalfEven_near 100 (k * 2 ^ s) (by decide)
  rw [h.rounded] at hlow hhigh
  obtain ⟨c, hc⟩ : ∃ c, k * 2 ^ s = 4 * c := by
    refine ⟨k * 2 ^ (s - 2), ?_⟩
    have hs := h.le_scale
    rw [Nat.mul_left_comm, show 4 = 2 ^ 2 from rfl, ← Nat.pow_add, Nat.add_sub_cancel' (by omega)]
  omega

/-- A decimal with three places at most that rounds to the double is `k` hundredths. -/
lemma eq_of_holds (h : IsNearest k s m) {below d : Nat} {e : Int} (hbelow : below ≤ 2)
    (places : -3 ≤ e) (holds : (nearestInterval s m below).holds d e = true) :
    d * 10 ^ (e + 3).toNat = 10 * k := by
  obtain ⟨hlow, hhigh⟩ := holds_bounds places holds
  have hnear := h.near
  have hpow : 2 ^ 46 ≤ 2 ^ s := Nat.pow_le_pow_right (by decide) h.le_scale
  generalize d * 10 ^ (e + 3).toNat = c at hlow hhigh
  have hten : 10 * k * 2 ^ s = 10 * (k * 2 ^ s) := Nat.mul_assoc _ _ _
  refine Nat.le_antisymm (Nat.le_of_not_lt fun hlt => ?_) (Nat.le_of_not_lt fun hlt => ?_)
  · have hstep := Nat.mul_le_mul_right (2 ^ s) hlt
    rw [Nat.succ_mul, hten] at hstep
    omega
  · have hstep := Nat.mul_le_mul_right (2 ^ s) hlt
    rw [Nat.succ_mul, hten] at hstep
    omega

/-- With three places, the number of hundredths is found. -/
lemma onGrid?_thousandths (h : IsNearest k s m) {below : Nat}
    (hbelow : (4 * m - below) * 100 < 4 * (k * 2 ^ s)) :
    (nearestInterval s m below).onGrid? (-3) = some (10 * k) := by
  have hnear := h.near
  have hpow : 2 ^ 46 ≤ 2 ^ s := Nat.pow_le_pow_right (by decide) h.le_scale
  have hten : 10 * k * (4 * 2 ^ s) = 40 * (k * 2 ^ s) := Nat.mul_mul_mul_comm 10 k 4 (2 ^ s)
  have hscale : ∀ num den : Nat, Decimal.scale num den (-3) = (num * 1000, den) := fun _ _ => rfl
  have hround : roundHalfEven (4 * m * 1000) (4 * 2 ^ s) = 10 * k := by
    refine roundHalfEven_eq ?_ ?_ <;> rw [hten] <;> omega
  have hholds : (nearestInterval s m below).holds (10 * k) (-3) = true := by
    simp only [nearestInterval, Interval.holds, hscale, hten]
    split <;> simp only [Bool.and_eq_true, decide_eq_true_eq] <;> omega
  have hpos := h.pos
  rw [Interval.onGrid?]
  simp only [nearestInterval, hscale, hround] at hholds ⊢
  rw [if_pos (by simp [hholds]; omega)]

/-- The leading digit stands among the places that are searched. -/
lemma leadingExponent_bounds (h : IsNearest k s m) :
    -3 ≤ leadingExponent (4 * m) (4 * 2 ^ s) ∧ leadingExponent (4 * m) (4 * 2 ^ s) ≤ 3 := by
  have hnear := h.near
  have hpos := h.pos
  have hsmall := h.small
  have hlarge := h.mantissa.low
  have hlow := Nat.mul_le_mul_right (2 ^ s) hpos
  have hhigh := Nat.mul_le_mul_right (2 ^ s) hsmall
  have hpow : 0 < 2 ^ s := Nat.two_pow_pos s
  rw [leadingExponent]
  split
  · have hquotient : 4 * m / (4 * 2 ^ s) < 10 ^ 3 :=
      (Nat.div_lt_iff_lt_mul (by omega)).mpr (by omega)
    have hcount := digitCount_le (by decide) hquotient
    have hcountPos := digitCount_pos (4 * m / (4 * 2 ^ s))
    omega
  · have hinverse : (4 * 2 ^ s + 4 * m - 1) / (4 * m) < 10 ^ 3 :=
      (Nat.div_lt_iff_lt_mul (by omega)).mpr (by omega)
    have hcount := digitCount_le (by decide)
      (Nat.lt_of_le_of_lt (Nat.sub_le _ 1) hinverse)
    have hneg : ∀ n : Nat, Int.negOfNat n = -(n : Int) := fun n => by cases n <;> rfl
    dsimp only
    rw [hneg]
    omega

end IsNearest

/-- The interval of a double that is not a whole number. -/
lemma interval_eq (pos : 0 < s) (boundary : Bool) :
    (⟨false, m, -(s : Int), boundary⟩ : Binary).interval =
      nearestInterval s m (if boundary then 1 else 2) := by
  have hneg : ¬(0 : Int) ≤ -(s : Int) := by omega
  have hnat : (- -(s : Int)).toNat = s := by omega
  rw [Binary.interval, Binary.fraction]
  simp only [hneg, if_false, hnat, Nat.mul_one, Nat.pow_eq, nearestInterval]

/-- **Hundredths.**  The fewest digits that identify the double nearest to `k` hundredths are these
hundredths. -/
lemma isHundredths_shortest (h : IsNearest k s m) {boundary : Bool}
    (hboundary : boundary = true → m = 2 ^ 52) :
    (Binary.shortest ⟨false, m, -(s : Int), boundary⟩).IsHundredths k := by
  have hs := h.le_scale
  have hnear := h.near
  have hlow : (4 * m - if boundary then 1 else 2) * 100 < 4 * (k * 2 ^ s) := by
    have hscale := h.scale.low
    split
    · rename_i hb
      have hm := hboundary hb
      omega
    · omega
  have hbelow : (if boundary then 1 else 2) ≤ 2 := by split <;> decide
  obtain ⟨hleadLow, hleadHigh⟩ := h.leadingExponent_bounds
  generalize hlead : leadingExponent (4 * m) (4 * 2 ^ s) = lead at hleadLow hleadHigh
  -- the search reaches three places after at most six steps, and finds nothing else before
  obtain ⟨n, hn⟩ : ∃ n : Nat, lead - n = -3 := ⟨(lead + 3).toNat, by omega⟩
  obtain ⟨first, hfirst, a, ha, hfound⟩ := @findSome?_range _ (fun n : Nat =>
      ((nearestInterval s m (if boundary then 1 else 2)).onGrid? (lead - n)).map fun d =>
        Scientific.normalize (digitCount d) d (lead - n))
    n 17 (by omega) (by
      simp only [hn, h.onGrid?_thousandths hlow]
      rfl)
  obtain ⟨d, hd, rfl⟩ := Option.map_eq_some_iff.mp ha
  obtain ⟨hpos, hholds⟩ := holds_of_onGrid? hd
  have hplaces : -3 ≤ lead - first := by omega
  rw [Binary.shortest, interval_eq (by omega)]
  simp only [nearestInterval, hlead] at hfound ⊢
  rw [hfound, Option.getD_some]
  exact isHundredths_normalize _ ⟨hpos, hplaces, h.eq_of_holds hbelow hplaces hholds⟩

end Nearest

end CoverageEstimate.Decimal
