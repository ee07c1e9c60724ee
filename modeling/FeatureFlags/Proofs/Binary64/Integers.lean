import FeatureFlags.Proofs.Binary64.Rounding

/-!
# Integers as doubles

A double has 53 binary digits, so the double nearest to an integer is the `nearest` integer with that
many, ties to the even one (`signedUnits_ofInt`). Rounding keeps the order of integers
(`nearestInt_mono`) but need not keep them apart: integers of up to 53 digits are their own nearest
ones, and below 2⁶⁴ two integers with the same nearest one lie at most 2¹¹ apart
(`large_and_close_of_nearestInt_eq`).

Doubles are in the order of their values (`compare_ordinal`), so the doubles nearest to two integers
are in the order of the `nearestInt` ones (`compare_ordinal_ofInt`).
-/

namespace FeatureFlags.Binary64

/-! ## Rounded quotients -/

theorem le_roundDiv (n d : Nat) : n / d ≤ roundDiv n d := by
  unfold roundDiv
  dsimp only
  split
  · exact Nat.le_refl _
  · split <;> omega

theorem roundDiv_of_dvd {n d : Nat} (h : d ∣ n) : roundDiv n d = n / d := by
  have exact_ : n % d = 0 := Nat.mod_eq_zero_of_dvd h
  obtain rfl | pos := Nat.eq_zero_or_pos d
  · rw [Nat.zero_dvd] at h
    subst h
    rfl
  · unfold roundDiv
    dsimp only
    rw [exact_, if_pos (by omega)]

/-- A quotient does not change when both of its terms are multiplied. -/
theorem roundDiv_mul_right (n d : Nat) {c : Nat} (pos : 0 < c) :
    roundDiv (n * c) (d * c) = roundDiv n d := by
  have below : 2 * (n % d * c) < d * c ↔ 2 * (n % d) < d := by
    rw [← Nat.mul_assoc]
    exact Nat.mul_lt_mul_right pos
  have above : d * c < 2 * (n % d * c) ↔ d < 2 * (n % d) := by
    rw [← Nat.mul_assoc]
    exact Nat.mul_lt_mul_right pos
  unfold roundDiv
  simp only [Nat.mul_div_mul_right _ _ pos, Nat.mul_mod_mul_right, below, above]

theorem roundDiv_mono {a b d : Nat} (h : a ≤ b) : roundDiv a d ≤ roundDiv b d := by
  obtain less | same := Nat.lt_or_eq_of_le (Nat.div_le_div_right (c := d) h)
  · exact (roundDiv_le a d).trans (less.trans_le (le_roundDiv b d))
  · have rest : a % d ≤ b % d := by
      have ha := Nat.div_add_mod a d
      have hb := Nat.div_add_mod b d
      rw [same] at ha
      omega
    unfold roundDiv
    dsimp only
    rw [same]
    split <;> split <;> (try split) <;> (try split) <;> omega

/-- A rounded quotient misses the exact one by at most a half. -/
theorem roundDiv_mul_near (n : Nat) {d : Nat} (pos : 0 < d) :
    2 * (roundDiv n d * d) ≤ 2 * n + d ∧ 2 * n ≤ 2 * (roundDiv n d * d) + d := by
  have parts := Nat.div_add_mod n d
  have rest := Nat.mod_lt n pos
  rw [Nat.mul_comm] at parts
  have up : (n / d + 1) * d = n / d * d + d := Nat.succ_mul _ _
  unfold roundDiv
  dsimp only
  split
  · omega
  · split
    · rw [up]
      omega
    · obtain even | odd := Nat.mod_two_eq_zero_or_one (n / d)
      · rw [even, Nat.add_zero]
        omega
      · rw [odd, up]
        omega

/-! ## 53 binary digits -/

/-- The distance of the numbers of 53 binary digits around a number. -/
def stepAt (n : Nat) : Nat := Nat.pow 2 (Nat.log2 n - 52)

/-- The number of 53 binary digits that is nearest to a number, ties to the even one. -/
def nearest (n : Nat) : Nat := roundDiv n (stepAt n) * stepAt n

theorem stepAt_pos (n : Nat) : 0 < stepAt n := Nat.two_pow_pos _

theorem nearest_of_dvd {n : Nat} (h : stepAt n ∣ n) : nearest n = n := by
  rw [nearest, roundDiv_of_dvd h, Nat.div_mul_cancel h]

theorem stepAt_of_lt {n : Nat} (h : n < 2 * binade) : stepAt n = 1 := by
  have digits : Nat.log2 n - 52 = 0 := by
    obtain rfl | pos := Nat.eq_zero_or_pos n
    · rfl
    · have := (Nat.log2_lt (k := 53) (Nat.ne_of_gt pos)).2 h
      omega
  rw [stepAt, digits]

/-- Numbers of up to 53 digits are their own nearest ones. -/
theorem nearest_of_le {n : Nat} (h : n ≤ 2 * binade) : nearest n = n := by
  obtain less | rfl := Nat.lt_or_eq_of_le h
  · exact nearest_of_dvd (stepAt_of_lt less ▸ Nat.one_dvd n)
  · decide

theorem log2_mul_pow {n : Nat} (pos : 0 < n) (k : Nat) :
    Nat.log2 (n * Nat.pow 2 k) = Nat.log2 n + k := by
  have scaled : 0 < n * Nat.pow 2 k := Nat.mul_pos pos (Nat.two_pow_pos k)
  rw [Nat.log2_eq_iff (Nat.ne_of_gt scaled)]
  constructor
  · rw [Nat.pow_add]
    exact Nat.mul_le_mul_right _ (Nat.log2_self_le (Nat.ne_of_gt pos))
  · rw [Nat.add_right_comm, Nat.pow_add]
    exact Nat.mul_lt_mul_of_pos_right Nat.lt_log2_self (Nat.two_pow_pos k)

/-- Rounding to a number of digits does not depend on the scale. -/
theorem nearest_mul_pow (n k : Nat) : nearest (n * Nat.pow 2 k) = nearest n * Nat.pow 2 k := by
  obtain rfl | pos := Nat.eq_zero_or_pos n
  · rw [Nat.zero_mul, nearest_of_le (Nat.zero_le _), Nat.zero_mul]
  obtain short | long := Nat.lt_or_ge (Nat.log2 n) 52
  · have small : n < 2 * binade :=
      ((Nat.log2_lt (Nat.ne_of_gt pos)).1 short).trans (by decide)
    have fine : stepAt (n * Nat.pow 2 k) ∣ n * Nat.pow 2 k := by
      rw [stepAt, log2_mul_pow pos]
      exact (Nat.pow_dvd_pow 2 (by omega)).trans (Nat.dvd_mul_left _ n)
    rw [nearest_of_dvd fine, nearest_of_le small.le]
  · have step : stepAt (n * Nat.pow 2 k) = stepAt n * Nat.pow 2 k := by
      rw [stepAt, stepAt, log2_mul_pow pos, Nat.sub_add_comm long]
      exact Nat.pow_add 2 _ k
    rw [nearest, nearest, step, roundDiv_mul_right _ _ (c := Nat.pow 2 k) (Nat.two_pow_pos k),
      Nat.mul_assoc]

/-- A number lies between powers of two that have at most 53 digits, and so does the nearest one. -/
theorem nearest_within {n : Nat} (pos : 0 < n) :
    2 ^ Nat.log2 n ≤ nearest n ∧ nearest n ≤ 2 ^ (Nat.log2 n + 1) := by
  obtain small | large := Nat.lt_or_ge n (2 * binade)
  · rw [nearest_of_le small.le]
    exact ⟨Nat.log2_self_le (Nat.ne_of_gt pos), Nat.lt_log2_self.le⟩
  have long : 52 < Nat.log2 n :=
    (Nat.le_log2 (k := 53) (Nat.ne_of_gt pos)).2 large
  have low := Nat.log2_self_le (Nat.ne_of_gt pos)
  have high := (Nat.lt_log2_self (n := n)).le
  have digits (e : Nat) (he : Nat.log2 n ≤ e) : roundDiv (2 ^ e) (stepAt n) * stepAt n = 2 ^ e := by
    have fine : stepAt n ∣ 2 ^ e := Nat.pow_dvd_pow 2 (by omega)
    rw [roundDiv_of_dvd fine, Nat.div_mul_cancel fine]
  constructor
  · rw [← digits _ (Nat.le_refl _)]
    exact Nat.mul_le_mul_right _ (roundDiv_mono low)
  · rw [← digits _ (Nat.le_succ _)]
    exact Nat.mul_le_mul_right _ (roundDiv_mono high)

theorem nearest_mono {a b : Nat} (h : a ≤ b) : nearest a ≤ nearest b := by
  obtain rfl | pos := Nat.eq_zero_or_pos a
  · rw [nearest_of_le (Nat.zero_le _)]
    exact Nat.zero_le _
  have pos' : 0 < b := Nat.lt_of_lt_of_le pos h
  obtain less | same := Nat.lt_or_ge (Nat.log2 a) (Nat.log2 b)
  · exact ((nearest_within pos).2.trans (Nat.pow_le_pow_right (by decide) less)).trans
      (nearest_within pos').1
  · have same : Nat.log2 a = Nat.log2 b := by
      refine Nat.le_antisymm ?_ same
      exact (Nat.le_log2 (Nat.ne_of_gt pos')).2
        ((Nat.log2_self_le (Nat.ne_of_gt pos)).trans h)
    have step : stepAt a = stepAt b := by rw [stepAt, stepAt, same]
    rw [nearest, nearest, step]
    exact Nat.mul_le_mul_right _ (roundDiv_mono h)

/-- Up to 2⁶⁴ the nearest number is at most 2¹⁰ away. -/
theorem nearest_near {n : Nat} (h : n ≤ 0x10000000000000000) :
    nearest n ≤ n + 1024 ∧ n ≤ nearest n + 1024 := by
  obtain less | rfl := Nat.lt_or_eq_of_le h
  · have step : stepAt n ≤ 2048 := by
      refine Nat.pow_le_pow_right (j := 11) (by decide) ?_
      obtain rfl | pos := Nat.eq_zero_or_pos n
      · decide
      · have := (Nat.log2_lt (k := 64) (Nat.ne_of_gt pos)).2 less
        omega
    have near := roundDiv_mul_near n (stepAt_pos n)
    unfold nearest
    omega
  · decide

/-! ## Integers -/

/-- The integer of 53 binary digits that is nearest to an integer. -/
def nearestInt (n : Int) : Int := if n < 0 then -(nearest n.natAbs : Int) else nearest n.natAbs

theorem nearestInt_mono {a b : Int} (h : a ≤ b) : nearestInt a ≤ nearestInt b := by
  unfold nearestInt
  split
  · split
    · have := nearest_mono (show b.natAbs ≤ a.natAbs by omega)
      omega
    · omega
  · split
    · omega
    · have := nearest_mono (show a.natAbs ≤ b.natAbs by omega)
      omega

theorem nearestInt_of_le {n : Int} (h : n.natAbs ≤ 0x20000000000000) : nearestInt n = n := by
  rw [nearestInt, nearest_of_le h]
  omega

theorem natAbs_nearestInt (n : Int) : (nearestInt n).natAbs = nearest n.natAbs := by
  unfold nearestInt
  split <;> omega

theorem nearestInt_near {n : Int} (h : n.natAbs ≤ 0x10000000000000000) :
    (nearestInt n - n).natAbs ≤ 1024 := by
  have near := nearest_near h
  unfold nearestInt
  omega

/-- An integer below 2⁵³ shares its nearest one with no other. -/
theorem eq_of_nearestInt_eq {a b : Int} (small : a.natAbs < 0x20000000000000)
    (same : nearestInt a = nearestInt b) : a = b := by
  have exact_ := nearestInt_of_le small.le
  have below : b.natAbs < 0x20000000000000 := by
    by_contra large
    have reach := nearest_mono (Nat.le_of_not_lt large)
    rw [nearest_of_le (n := 0x20000000000000) (Nat.le_refl _), ← natAbs_nearestInt, ← same,
      exact_] at reach
    omega
  rw [← exact_, same, nearestInt_of_le below.le]

/-- Different integers of up to 64 bits that have the same nearest one are large and close to each
other. -/
theorem large_and_close_of_nearestInt_eq {a b : Int} (ha : a.natAbs ≤ 0x10000000000000000)
    (hb : b.natAbs ≤ 0x10000000000000000) (same : nearestInt a = nearestInt b) (ne : a ≠ b) :
    0x20000000000000 ≤ a.natAbs ∧ 0x20000000000000 ≤ b.natAbs ∧ (a - b).natAbs ≤ 2048 := by
  refine ⟨?_, ?_, ?_⟩
  · by_contra small
    exact ne (eq_of_nearestInt_eq (Nat.lt_of_not_le small) same)
  · by_contra small
    exact ne (eq_of_nearestInt_eq (Nat.lt_of_not_le small) same.symm).symm
  · have := nearestInt_near ha
    have := nearestInt_near hb
    omega

/-! ## The order of the doubles -/

theorem strictMono_unitsAt : StrictMono unitsAt :=
  strictMono_nat_of_lt_succ fun m => unitsAt_succ m ▸ Nat.lt_add_of_pos_right (gapAt_pos m)

theorem signedUnits_eq (x : Binary64) :
    x.signedUnits = if x.negative then -(unitsAt x.magnitude : Int) else unitsAt x.magnitude := rfl

/-- Doubles stand in the order of their values. -/
theorem ordinal_le_iff (x y : Binary64) :
    x.ordinal ≤ y.ordinal ↔ x.signedUnits ≤ y.signedUnits := by
  have order := strictMono_unitsAt.le_iff_le (a := x.magnitude) (b := y.magnitude)
  have order' := strictMono_unitsAt.le_iff_le (a := y.magnitude) (b := x.magnitude)
  have zero : unitsAt 0 = 0 := rfl
  have zero_x := strictMono_unitsAt.le_iff_le (a := x.magnitude) (b := 0)
  have zero_y := strictMono_unitsAt.le_iff_le (a := y.magnitude) (b := 0)
  rw [ordinal, ordinal, signedUnits_eq, signedUnits_eq]
  cases x.negative <;> cases y.negative <;>
    simp only [Bool.false_eq_true, if_false, if_true] <;> omega

theorem compare_ordinal (x y : Binary64) :
    compare x.ordinal y.ordinal = compare x.signedUnits y.signedUnits := by
  rw [Int.compare_eq_ite_le, Int.compare_eq_ite_le]
  simp only [ordinal_le_iff]

/-- Where a magnitude stands that is counted in steps from a power of two on. -/
theorem unitsAt_steps {s r : Nat} (start : s = 0 ∨ binade ≤ r) (stop : r ≤ 2 * binade) :
    unitsAt (s * binade + r) = r * Nat.pow 2 s := by
  obtain less | rfl := Nat.lt_or_eq_of_le stop
  · obtain small | large := Nat.lt_or_ge r binade
    · obtain rfl | large := start
      · rw [Nat.zero_mul, Nat.zero_add, unitsAt, if_pos small]
        exact (Nat.mul_one r).symm
      · omega
    · have place : s * binade + r = (s + 1) * binade + (r - binade) := by
        rw [Nat.succ_mul]
        omega
      have inside : r - binade < binade := by omega
      have gap : ((s + 1) * binade + (r - binade)) / binade - 1 = s := by
        rw [Nat.mul_comm, Nat.mul_add_div (by decide), Nat.div_eq_of_lt inside]
        omega
      have mantissa : ((s + 1) * binade + (r - binade)) % binade = r - binade := by
        rw [Nat.mul_comm, Nat.mul_add_mod, Nat.mod_eq_of_lt inside]
      rw [place, unitsAt, if_neg (by rw [Nat.succ_mul]; omega), mantissa, gapAt, gap,
        Nat.sub_add_cancel large]
  · have place : s * binade + 2 * binade = (s + 2) * binade := (Nat.add_mul _ _ _).symm
    have gap : (s + 2) * binade / binade - 1 = s + 1 := by
      rw [Nat.mul_div_cancel _ (by decide)]
      omega
    rw [place, unitsAt, if_neg (by rw [Nat.add_mul]; omega), Nat.mul_mod_left, gapAt, gap,
      Nat.zero_add, Nat.mul_comm 2 binade, Nat.mul_assoc]
    exact congrArg (binade * ·) Nat.pow_succ'

theorem roundDiv_stepAt_le (n : Nat) : roundDiv n (stepAt n) ≤ 2 * binade := by
  refine Nat.le_trans (roundDiv_le _ _) ((Nat.div_lt_iff_lt_mul (stepAt_pos n)).2 ?_)
  refine Nat.lt_of_lt_of_le (Nat.lt_log2_self (n := n)) (Nat.le_trans
    (Nat.pow_le_pow_right (by decide) ?_) (Nat.le_of_eq (Nat.pow_add 2 53 (Nat.log2 n - 52))))
  omega

/-- A number of units is rounded to a magnitude that is counted in steps from a power of two on. -/
theorem magnitudeOf_one {n : Nat} (range : Nat.log2 n < 2097) :
    magnitudeOf n 1 = (Nat.log2 n - 52) * binade + roundDiv n (stepAt n) := by
  have high := roundDiv_stepAt_le n
  have finite : (Nat.log2 n - 52) * binade + roundDiv n (stepAt n) ≤ infinite := by
    have steps : Nat.log2 n - 52 ≤ 2045 := by omega
    exact Nat.le_trans (Nat.add_le_add (Nat.mul_le_mul_right binade steps) high) (by decide)
  unfold magnitudeOf
  dsimp only
  rw [Nat.div_one, Nat.one_mul]
  exact Nat.min_eq_left finite

/-- The double that a number of units is rounded to has the nearest number of units. -/
theorem unitsAt_magnitudeOf {n : Nat} (range : Nat.log2 n < 2097) :
    unitsAt (magnitudeOf n 1) = nearest n := by
  obtain rfl | pos := Nat.eq_zero_or_pos n
  · rfl
  have low : Nat.log2 n - 52 = 0 ∨ binade ≤ roundDiv n (stepAt n) := by
    obtain short | long := Nat.lt_or_ge (Nat.log2 n) 52
    · exact .inl (by omega)
    · refine .inr (Nat.le_trans ?_ (le_roundDiv _ _))
      rw [Nat.le_div_iff_mul_le (stepAt_pos n)]
      refine Nat.le_trans (Nat.le_of_eq ?_) (Nat.log2_self_le (Nat.ne_of_gt pos))
      exact (Nat.pow_add 2 52 (Nat.log2 n - 52)).symm.trans
        (congrArg (Nat.pow 2) (Nat.add_sub_cancel' long))
  rw [magnitudeOf_one range, unitsAt_steps low (roundDiv_stepAt_le n)]
  rfl

-- The exponent is kept apart from the power, which no step should compute.
theorem oneUnits_eq_pow : ∃ k, k = 1074 ∧ oneUnits = Nat.pow 2 k := by
  unfold oneUnits
  generalize 1074 = exponent
  exact ⟨exponent, rfl, rfl⟩

/-- Integers of up to 64 bits are in the range of the doubles, counted in units. -/
theorem log2_units_lt {n : Nat} (h : n ≤ 0x10000000000000000) :
    Nat.log2 (n * oneUnits) < 2097 := by
  obtain ⟨k, hk, one⟩ := oneUnits_eq_pow
  rw [one]
  obtain rfl | pos := Nat.eq_zero_or_pos n
  · rw [Nat.zero_mul]
    decide
  · have digits := (Nat.log2_lt (k := 65) (Nat.ne_of_gt pos)).2 (Nat.lt_of_le_of_lt h (by decide))
    rw [log2_mul_pow pos]
    omega

/-- The double nearest to an integer of up to 64 bits is the nearest integer of 53 digits. -/
theorem signedUnits_ofInt {n : Int} (h : n.natAbs ≤ 0x10000000000000000) :
    (ofInt n).signedUnits = nearestInt n * oneUnits := by
  obtain ⟨k, -, one⟩ := oneUnits_eq_pow
  have magnitude : (ofInt n).magnitude = magnitudeOf (n.natAbs * oneUnits) 1 := rfl
  have units : unitsAt (ofInt n).magnitude = nearest n.natAbs * oneUnits := by
    rw [magnitude, unitsAt_magnitudeOf (log2_units_lt h), one, nearest_mul_pow]
  have sign : (ofInt n).negative = decide (n < 0) := rfl
  rw [signedUnits_eq, units, sign, nearestInt]
  by_cases negative : n < 0
  · rw [if_pos negative, if_pos (decide_eq_true negative), Nat.cast_mul, Int.neg_mul]
  · rw [if_neg negative, if_neg (by simpa using negative), Nat.cast_mul]

/-- The doubles nearest to two integers are in the order of the nearest integers of 53 digits. -/
theorem compare_ordinal_ofInt {a b : Int} (ha : a.natAbs ≤ 0x10000000000000000)
    (hb : b.natAbs ≤ 0x10000000000000000) :
    compare (ofInt a).ordinal (ofInt b).ordinal = compare (nearestInt a) (nearestInt b) := by
  have pos : (0 : Int) < oneUnits := by
    obtain ⟨k, -, one⟩ := oneUnits_eq_pow
    rw [one]
    exact Int.natCast_pos.2 (Nat.two_pow_pos k)
  rw [compare_ordinal, signedUnits_ofInt ha, signedUnits_ofInt hb, Int.compare_eq_ite_le,
    Int.compare_eq_ite_le]
  simp only [Int.mul_le_mul_right pos]

end FeatureFlags.Binary64
