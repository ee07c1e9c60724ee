import FeatureFlags.Binary64.Shortest
import Mathlib.Algebra.Order.Field.Power
import Mathlib.Order.Monotone.Basic
import Mathlib.Tactic.NormNum
import Mathlib.Tactic.Ring

/-!
# The shortest decimal of a double

The interval of the numbers that round to a double ends where that of the next one begins, and the
end belongs to the one of the two whose magnitude is even. So a number rounds to one double only
(`magnitude_eq_of_contains`).

The shortest decimal of a positive double lies in its interval (`contains_shortest`): a grid is
looked for, and one of 17 digits is finer than the interval is wide (`onGrid?_ne_none`).
-/

namespace FeatureFlags

namespace Binary64

/-! ## Intervals -/

/-- The distance from a magnitude to the next one, in units. -/
def gapAt (m : Nat) : Nat := Nat.pow 2 (m / binade - 1)

/-- The units of the doubles of a magnitude. -/
def unitsAt (m : Nat) : Nat := if m < binade then m else (m % binade + binade) * gapAt m

/-- How far the interval of a magnitude reaches down from its middle, in quarter units. -/
def reachBelow (m : Nat) : Nat :=
  if m % binade = 0 ∧ 2 * binade ≤ m then gapAt m else 2 * gapAt m

/-- The lower end of the interval of a magnitude, in quarter units. -/
def lowAt (m : Nat) : Nat := 4 * unitsAt m - reachBelow m

/-- The upper end of the interval of a magnitude, in quarter units. -/
def highAt (m : Nat) : Nat := 4 * unitsAt m + 2 * gapAt m

theorem rounding_eq (x : Binary64) :
    x.rounding = ⟨lowAt x.magnitude, 4 * unitsAt x.magnitude, highAt x.magnitude,
      x.magnitude % 2 == 0⟩ := rfl

theorem gapAt_pos (m : Nat) : 0 < gapAt m := Nat.two_pow_pos _

theorem gapAt_of_lt {m : Nat} (small : m < 2 * binade) : gapAt m = 1 := by
  unfold gapAt
  have first : m / binade - 1 = 0 := by unfold binade at *; omega
  rw [first]

/-- The distance doubles at a power of two and stays the same elsewhere. -/
theorem gapAt_succ (m : Nat) :
    gapAt (m + 1) = if (m + 1) % binade = 0 ∧ 2 * binade ≤ m + 1 then 2 * gapAt m else gapAt m := by
  unfold gapAt
  split
  · rename_i power
    have quotient : (m + 1) / binade - 1 = (m / binade - 1) + 1 := by unfold binade at *; omega
    rw [quotient]
    exact Nat.pow_succ'
  · have quotient : (m + 1) / binade - 1 = m / binade - 1 := by unfold binade at *; omega
    rw [quotient]

theorem unitsAt_succ (m : Nat) : unitsAt (m + 1) = unitsAt m + gapAt m := by
  by_cases below : m + 1 < binade
  · rw [unitsAt, unitsAt, if_pos below, if_pos (by omega), gapAt_of_lt (by omega)]
  by_cases first : m < binade
  · have power : (m + 1) % binade = 0 := by unfold binade at *; omega
    rw [unitsAt, unitsAt, if_neg below, if_pos first, power, gapAt_of_lt, gapAt_of_lt] <;> omega
  rw [unitsAt, unitsAt, if_neg below, if_neg first, gapAt_succ, ← Nat.add_one_mul]
  split
  · rename_i power
    have last : m % binade + binade + 1 = binade * 2 := by unfold binade at *; omega
    rw [power.1, Nat.zero_add, last, Nat.mul_assoc]
  · have next : (m + 1) % binade + binade = m % binade + binade + 1 := by unfold binade at *; omega
    rw [next]

/-- The interval of a magnitude ends where that of the next one begins. -/
theorem highAt_eq_lowAt_succ (m : Nat) : highAt m = lowAt (m + 1) := by
  have gap_succ := gapAt_succ m
  have gap_pos := gapAt_pos m
  unfold highAt lowAt reachBelow
  rw [unitsAt_succ]
  split <;> rename_i power
  · rw [if_pos power] at gap_succ
    omega
  · rw [if_neg power] at gap_succ
    omega

theorem lowAt_lt_highAt (m : Nat) : lowAt m < highAt m := by
  have gap_pos := gapAt_pos m
  unfold lowAt highAt
  omega

theorem strictMono_lowAt : StrictMono lowAt :=
  strictMono_nat_of_lt_succ fun m => highAt_eq_lowAt_succ m ▸ lowAt_lt_highAt m

/-- Whether a number lies in the interval. -/
def Rounding.Contains (r : Rounding) (q : ℚ) : Prop :=
  if r.closed then r.low ≤ q * oneQuarters ∧ q * oneQuarters ≤ r.high
  else r.low < q * oneQuarters ∧ q * oneQuarters < r.high

theorem Rounding.Contains.within {r : Rounding} {q : ℚ} (h : r.Contains q) :
    r.low ≤ q * oneQuarters ∧ q * oneQuarters ≤ r.high := by
  unfold Rounding.Contains at h
  split at h
  · exact h
  · exact ⟨h.1.le, h.2.le⟩

/-- A number in the intervals of two doubles is no number of the interval of a greater one. -/
theorem not_magnitude_lt_of_contains {x y : Binary64} {q : ℚ} (hx : x.rounding.Contains q)
    (hy : y.rounding.Contains q) : ¬ x.magnitude < y.magnitude := by
  intro less
  rw [rounding_eq] at hx hy
  have ends : (lowAt y.magnitude : ℚ) ≤ highAt x.magnitude := hy.within.1.trans hx.within.2
  have next : y.magnitude = x.magnitude + 1 := by
    refine Nat.le_antisymm ?_ less
    rw [highAt_eq_lowAt_succ, Nat.cast_le] at ends
    exact strictMono_lowAt.le_iff_le.1 ends
  have meet : highAt x.magnitude = lowAt y.magnitude := next ▸ highAt_eq_lowAt_succ x.magnitude
  -- The intervals meet in one point, which belongs to one of them only.
  obtain even | odd := Nat.mod_two_eq_zero_or_one x.magnitude
  · have open_ : (y.magnitude % 2 == 0) = false := by
      rw [next]
      exact beq_eq_false_iff_ne.2 (by omega)
    have above := hy
    rw [Rounding.Contains, open_] at above
    have le := hx.within.2
    rw [meet] at le
    exact absurd above.1 (not_lt.2 le)
  · have open_ : (x.magnitude % 2 == 0) = false := beq_eq_false_iff_ne.2 (by omega)
    have below := hx
    rw [Rounding.Contains, open_] at below
    have le := hy.within.1
    rw [← meet] at le
    exact absurd below.2 (not_lt.2 le)

/-- A number rounds to one magnitude only. -/
theorem magnitude_eq_of_contains {x y : Binary64} {q : ℚ} (hx : x.rounding.Contains q)
    (hy : y.rounding.Contains q) : x.magnitude = y.magnitude :=
  Nat.le_antisymm (not_lt.1 (not_magnitude_lt_of_contains hy hx))
    (not_lt.1 (not_magnitude_lt_of_contains hx hy))

/-! ## Grids -/

/-- The number that a decimal stands for. -/
def Decimal.value (d : Decimal) : ℚ := d.digits * 10 ^ d.exponent

theorem ten_zpow (e : Int) : (10 : ℚ) ^ e = 10 ^ e.toNat / 10 ^ (-e).toNat := by
  obtain ⟨n, rfl | rfl⟩ := e.eq_nat_or_neg <;> simp

/-- A point of a grid compares with a number of quarter units as it does on the scale of the
grid. -/
theorem le_value_iff (n c : Nat) (e : Int) :
    n ≤ (Decimal.mk c e).value * oneQuarters ↔
      n * Nat.pow 10 (-e).toNat ≤ c * (oneQuarters * Nat.pow 10 e.toNat) := by
  have pos : (0 : ℚ) < 10 ^ (-e).toNat := by positivity
  have scaled : (Decimal.mk c e).value * oneQuarters =
      c * (oneQuarters * 10 ^ e.toNat) / 10 ^ (-e).toNat := by
    rw [Decimal.value, ten_zpow]
    ring
  rw [scaled, le_div_iff₀ pos]
  exact_mod_cast Iff.rfl

theorem value_le_iff (n c : Nat) (e : Int) :
    (Decimal.mk c e).value * oneQuarters ≤ n ↔
      c * (oneQuarters * Nat.pow 10 e.toNat) ≤ n * Nat.pow 10 (-e).toNat := by
  have pos : (0 : ℚ) < 10 ^ (-e).toNat := by positivity
  have scaled : (Decimal.mk c e).value * oneQuarters =
      c * (oneQuarters * 10 ^ e.toNat) / 10 ^ (-e).toNat := by
    rw [Decimal.value, ten_zpow]
    ring
  rw [scaled, div_le_iff₀ pos]
  exact_mod_cast Iff.rfl

/-- Whether a point of a grid lies in an interval, on the scale of the grid. -/
def inside (r : Rounding) (e : Int) (c : Nat) : Bool :=
  let scale := Nat.pow 10 (-e).toNat
  let step := oneQuarters * Nat.pow 10 e.toNat
  if r.closed then r.low * scale ≤ c * step && c * step ≤ r.high * scale
  else r.low * scale < c * step && c * step < r.high * scale

theorem inside_iff {r : Rounding} {e : Int} {c : Nat} :
    inside r e c = true ↔ r.Contains (Decimal.mk c e).value := by
  have low_le := le_value_iff r.low c e
  have le_high := value_le_iff r.high c e
  have le_low := value_le_iff r.low c e
  have high_le := le_value_iff r.high c e
  unfold inside Rounding.Contains
  generalize oneQuarters = unit at *
  cases r.closed
  · simp only [Bool.false_eq_true, if_false, Bool.and_eq_true, decide_eq_true_eq]
    rw [← not_le, ← not_le, ← not_le, ← not_le, le_low, high_le]
  · simp only [if_true, Bool.and_eq_true, decide_eq_true_eq, low_le, le_high]

/-- The last point of a grid that is not above the middle. -/
def foot (r : Rounding) (e : Int) : Nat :=
  r.value * Nat.pow 10 (-e).toNat / (oneQuarters * Nat.pow 10 e.toNat)

/-- Whether the next point of a grid is to be preferred to the last one not above the middle. -/
def upper (r : Rounding) (e : Int) : Bool :=
  let value := r.value * Nat.pow 10 (-e).toNat
  let step := oneQuarters * Nat.pow 10 e.toNat
  let below := value - foot r e * step
  let above := (foot r e + 1) * step - value
  if below == above then foot r e % 2 == 1 else above < below

theorem onGrid?_eq (r : Rounding) (e : Int) :
    onGrid? r e =
      if inside r e (foot r e) && (!inside r e (foot r e + 1) || !upper r e) && foot r e != 0 then
        some ⟨foot r e, e⟩
      else if inside r e (foot r e + 1) then some ⟨foot r e + 1, e⟩
      else none := rfl

/-- What is found on a grid lies in the interval. -/
theorem contains_of_onGrid? {r : Rounding} {e : Int} {d : Decimal} (h : onGrid? r e = some d) :
    d.digits ≠ 0 ∧ r.Contains d.value := by
  rw [onGrid?_eq] at h
  split at h
  · rename_i found
    cases h
    simp only [Bool.and_eq_true, bne_iff_ne] at found
    exact ⟨found.2, inside_iff.1 found.1.1⟩
  · split at h
    · rename_i found
      cases h
      exact ⟨Nat.succ_ne_zero _, inside_iff.1 found⟩
    · cases h

theorem oneQuarters_pos : 0 < oneQuarters := by
  unfold oneQuarters oneUnits
  generalize 1074 = exponent
  exact Nat.mul_pos (by decide) (Nat.two_pow_pos exponent)

/-- If a grid has nothing to offer, neither of the two points around the middle is inside. -/
theorem outside_of_onGrid?_eq_none {r : Rounding} {e : Int} (missed : onGrid? r e = none)
    (pos : foot r e ≠ 0) :
    inside r e (foot r e) = false ∧ inside r e (foot r e + 1) = false := by
  rw [onGrid?_eq] at missed
  split at missed
  · cases missed
  · rename_i rejected
    split at missed
    · cases missed
    · rename_i next_outside
      rw [Bool.not_eq_true] at next_outside
      refine ⟨?_, next_outside⟩
      simpa [next_outside, pos] using rejected

/-- A grid has a point in an interval of which its step is at most the 10¹⁶th part. -/
theorem onGrid?_ne_none {r : Rounding} {e : Int} (low_le : r.low ≤ r.value)
    (lt_high : r.value < r.high) (wide : r.value < 10 ^ 16 * (r.high - r.low))
    (fine : 10 ^ 16 * (oneQuarters * Nat.pow 10 e.toNat) ≤ r.value * Nat.pow 10 (-e).toNat) :
    onGrid? r e ≠ none := by
  have scale_pos : 0 < Nat.pow 10 (-e).toNat := Nat.pow_pos (by decide)
  have step_pos : 0 < oneQuarters * Nat.pow 10 e.toNat :=
    Nat.mul_pos oneQuarters_pos (Nat.pow_pos (by decide))
  have foot_eq : foot r e =
      r.value * Nat.pow 10 (-e).toNat / (oneQuarters * Nat.pow 10 e.toNat) := rfl
  have outside := outside_of_onGrid?_eq_none (r := r) (e := e)
  unfold inside at outside
  dsimp only at outside
  intro missed
  replace outside := outside missed
  clear missed
  generalize oneQuarters * Nat.pow 10 e.toNat = step at *
  generalize Nat.pow 10 (-e).toNat = scale at *
  generalize foot r e = c at *
  have foot_le : c * step ≤ r.value * scale := foot_eq ▸ Nat.div_mul_le_self _ _
  have lt_next : r.value * scale < c * step + step := by
    rw [foot_eq, Nat.mul_comm _ step, ← Nat.mul_add_one]
    exact Nat.lt_mul_div_succ _ step_pos
  have low_scaled : r.low * scale ≤ r.value * scale := Nat.mul_le_mul_right _ low_le
  have high_scaled : r.value * scale < r.high * scale :=
    Nat.mul_lt_mul_of_pos_right lt_high scale_pos
  have foot_pos : c ≠ 0 := by
    rintro rfl
    omega
  -- With neither point in it, the interval is at most as wide as the step.
  have narrow : r.high * scale ≤ r.low * scale + step := by
    obtain ⟨foot_outside, next_outside⟩ := outside foot_pos
    rw [Nat.add_one_mul] at next_outside
    cases hclosed : r.closed <;> simp [hclosed] at foot_outside next_outside <;> omega
  have width : (r.high - r.low) * scale ≤ step := by
    rw [Nat.sub_mul]
    omega
  have wide_scaled : r.value * scale < 10 ^ 16 * (r.high - r.low) * scale :=
    Nat.mul_lt_mul_of_pos_right wide scale_pos
  rw [Nat.mul_assoc] at wide_scaled
  omega

/-- A search that comes to a grid with a point in the interval finds such a point. -/
theorem contains_firstGrid {r : Rounding} {point : Int} {fuel count : Nat}
    (last : onGrid? r (point - (count + fuel : Nat)) ≠ none) :
    (firstGrid r point (fuel + 1) count).digits ≠ 0 ∧
      r.Contains (firstGrid r point (fuel + 1) count).value := by
  induction fuel generalizing count with
  | zero =>
    rw [firstGrid]
    cases hgrid : onGrid? r (point - count) with
    | some d => exact contains_of_onGrid? hgrid
    | none => exact absurd hgrid last
  | succ fuel ih =>
    rw [firstGrid]
    cases hgrid : onGrid? r (point - count) with
    | some d => exact contains_of_onGrid? hgrid
    | none =>
      have further : onGrid? r (point - (count + 1 + fuel : Nat)) ≠ none := by
        rwa [Nat.add_right_comm]
      exact ih further

/-! ## The place of the point -/

theorem le_of_leadingZeros {value fuel place : Nat}
    (h : oneQuarters ≤ value * Nat.pow 10 (place + fuel + 1)) :
    oneQuarters ≤ value * Nat.pow 10 (leadingZeros value fuel place + 1) := by
  induction fuel generalizing place with
  | zero => exact h
  | succ fuel ih =>
    rw [leadingZeros]
    split
    · assumption
    · refine ih ?_
      rwa [Nat.add_right_comm place 1]

/-- A decimal numeral without leading zeros is at least the power of ten of its first digit. -/
theorem pow_le_of_length_toDigits {n : Nat} (pos : 0 < n) :
    10 ^ ((Nat.toDigits 10 n).length - 1) ≤ n := by
  obtain short | long := Nat.eq_zero_or_pos ((Nat.toDigits 10 n).length - 1)
  · rw [short]
    exact pos
  · have shorter := (Nat.length_toDigits_le_iff (n := n) (by decide : 1 < 10) long).not
    refine not_lt.1 (shorter.1 ?_)
    omega

theorem oneQuarters_le : oneQuarters ≤ Nat.pow 10 (0 + 400 + 1) := by
  unfold oneQuarters oneUnits
  decide +kernel

/-- A positive number of quarter units is at least the power of ten of its first digit. -/
theorem pow_pointOf_le {value : Nat} (pos : 0 < value) :
    (10 : ℚ) ^ (pointOf value - 1) * oneQuarters ≤ value := by
  unfold pointOf
  split
  · rename_i whole
    have quotient_pos : 0 < value / oneQuarters := Nat.div_pos whole oneQuarters_pos
    have digits_pos := Nat.length_toDigits_pos (b := 10) (n := value / oneQuarters)
    have le_quotient := pow_le_of_length_toDigits quotient_pos
    rw [digitCount, if_neg quotient_pos.ne']
    have place : ((Nat.toDigits 10 (value / oneQuarters)).length : Int) - 1 =
        ((Nat.toDigits 10 (value / oneQuarters)).length - 1 : Nat) := by
      omega
    rw [place, zpow_natCast]
    exact_mod_cast (Nat.mul_le_mul_right _ le_quotient).trans (Nat.div_mul_le_self _ _)
  · have found : oneQuarters ≤ value * Nat.pow 10 (leadingZeros value 400 0 + 1) := by
      have bound : oneQuarters ≤ value * Nat.pow 10 (0 + 400 + 1) :=
        oneQuarters_le.trans (Nat.le_mul_of_pos_left _ pos)
      exact le_of_leadingZeros bound
    generalize leadingZeros value 400 0 = place at found ⊢
    have power : (10 : ℚ) ^ (-(place : Int) - 1) = (10 ^ (place + 1))⁻¹ := by
      rw [← zpow_natCast, ← zpow_neg]
      congr 1
      push_cast
      ring
    rw [power, inv_mul_le_iff₀ (by positivity), mul_comm]
    exact_mod_cast found

/-! ## The shortest decimal -/

/-- The interval of a positive double is wider than the 10¹⁶th part of its middle. -/
theorem unitsAt_lt_width {m : Nat} (pos : 0 < m) :
    4 * unitsAt m < 10 ^ 16 * (highAt m - lowAt m) := by
  have gap_pos := gapAt_pos m
  unfold highAt lowAt reachBelow unitsAt
  by_cases small : m < binade
  · rw [if_pos small, gapAt_of_lt (by omega)]
    unfold binade at small ⊢
    split <;> omega
  · rw [if_neg small]
    generalize gapAt m = gap at *
    have mantissa : m % binade < binade := Nat.mod_lt _ (by decide)
    split
    · rename_i power
      rw [power.1, Nat.zero_add]
      unfold binade
      omega
    · have bound : (m % binade + binade) * gap < 2 * binade * gap :=
        Nat.mul_lt_mul_of_pos_right (by omega) gap_pos
      have reach : gap ≤ (m % binade + binade) * gap := Nat.le_mul_of_pos_left _ (by omega)
      generalize (m % binade + binade) * gap = units at *
      unfold binade at bound
      omega

/-- The shortest decimal of a positive double rounds to it. -/
theorem contains_shortest {x : Binary64} (pos : 0 < x.magnitude) :
    x.shortest.digits ≠ 0 ∧ x.rounding.Contains x.shortest.value := by
  have units_pos : 0 < 4 * unitsAt x.magnitude := by
    have first : lowAt 0 = 0 := rfl
    have := strictMono_lowAt pos
    unfold lowAt at this
    omega
  refine contains_firstGrid (onGrid?_ne_none ?_ ?_ ?_ ?_)
  · rw [rounding_eq]
    exact Nat.sub_le _ _
  · rw [rounding_eq]
    exact Nat.lt_add_of_pos_right (Nat.mul_pos (by decide) (gapAt_pos _))
  · rw [rounding_eq]
    exact unitsAt_lt_width pos
  · rw [← value_le_iff, rounding_eq]
    have place := pow_pointOf_le units_pos
    generalize pointOf (4 * unitsAt x.magnitude) = point at place ⊢
    have power : (Decimal.mk (10 ^ 16) (point - (1 + 16 : Nat))).value = 10 ^ (point - 1) := by
      have exponent : point - 1 = (16 : Nat) + (point - (1 + 16 : Nat)) := by omega
      rw [Decimal.value, exponent, zpow_add₀ (by norm_num), zpow_natCast, Nat.cast_pow]
      rfl
    rw [power]
    exact place

end Binary64

end FeatureFlags
