import FeatureFlags.Proofs.Binary64.Integers
import Mathlib.Data.Nat.Dist

/-!
# The double nearest to an integer

`IsNearestTo` says which double is nearest to an integer, without a word about how it is found: none
is nearer, the last bit is 0 if another one is as near, and the sign is that of the integer. There
is only one such double (`IsNearestTo.eq`), and it is the one that an integer of up to 64 bits is
rounded to (`isNearestTo_iff`).

Between two powers of two the doubles are the multiples of one step, of which `roundDiv` finds the
nearest (`dist_roundDiv`); a double below the power of two is farther off than the power itself.
-/

namespace FeatureFlags.Binary64

/-- How far a finite double is from an integer, in units. -/
def distance (x : Binary64) (n : Int) : Nat := (x.signedUnits - n * oneUnits).natAbs

/-- The double is the nearest one to an integer; of two that are equally near it is the one whose
last bit is 0. Its sign is that of the integer. -/
structure IsNearestTo (x : Binary64) (n : Int) : Prop where
  finite : x.isFinite = true
  nearest (y : Binary64) : y.isFinite = true → x.distance n ≤ y.distance n
  even (y : Binary64) : y.isFinite = true → y.distance n = x.distance n →
    y.magnitude = x.magnitude ∨ x.magnitude % 2 = 0
  sign : x.negative = true ↔ n < 0

/-! ## Magnitudes -/

/-- No multiple of a divisor is nearer than the one that the rounded quotient makes, and if another
one is as near, the quotient is even. -/
theorem dist_roundDiv (n j : Nat) {d : Nat} (pos : 0 < d) :
    Nat.dist (roundDiv n d * d) n ≤ Nat.dist (j * d) n ∧
      (Nat.dist (j * d) n = Nat.dist (roundDiv n d * d) n →
        j = roundDiv n d ∨ roundDiv n d % 2 = 0) := by
  have parts := Nat.div_add_mod n d
  have rest := Nat.mod_lt n pos
  have next : (n / d + 1) * d = n / d * d + d := Nat.succ_mul _ _
  have side : j * d ≤ n / d * d ∧ (j = n / d ∨ j * d + d ≤ n / d * d) ∨
      (n / d + 1) * d ≤ j * d ∧ (j = n / d + 1 ∨ (n / d + 1) * d + d ≤ j * d) := by
    rcases Nat.lt_or_ge (n / d) j with above | below
    · refine .inr ⟨Nat.mul_le_mul_right d above, ?_⟩
      rcases Nat.lt_or_eq_of_le above with further | same
      · rw [← Nat.succ_mul]
        exact .inr (Nat.mul_le_mul_right d further)
      · exact .inl same.symm
    · refine .inl ⟨Nat.mul_le_mul_right d below, ?_⟩
      rcases Nat.lt_or_eq_of_le below with further | same
      · rw [← Nat.succ_mul]
        exact .inr (Nat.mul_le_mul_right d further)
      · exact .inl same
  rw [Nat.mul_comm] at parts
  unfold roundDiv Nat.dist
  dsimp only
  rw [next] at side
  split
  · omega
  · split
    · rw [next]
      omega
    · rcases Nat.mod_two_eq_zero_or_one (n / d) with even | odd
      · rw [even, Nat.add_zero]
        omega
      · rw [odd, next]
        omega

/-- The doubles from a power of two on are multiples of the step that begins there. -/
theorem pow_dvd_unitsAt {s m : Nat} (large : (s + 1) * binade ≤ m) : Nat.pow 2 s ∣ unitsAt m := by
  have quotient : s + 1 ≤ m / binade := (Nat.le_div_iff_mul_le (by decide)).2 large
  have normal : ¬ m < binade := by
    have := Nat.le_mul_of_pos_left binade (show 0 < s + 1 by omega)
    omega
  rw [unitsAt, if_neg normal]
  exact Nat.dvd_mul_left_of_dvd (Nat.pow_dvd_pow 2 (by omega)) _

/-- A double that is no multiple of the step around a number is farther from it than the power of
two at which the step begins. -/
theorem unitsAt_lt_of_not_dvd {n m : Nat} (off : ¬ stepAt n ∣ unitsAt m) :
    unitsAt m < binade * stepAt n ∧ binade * stepAt n ≤ n := by
  have long : 52 < Nat.log2 n := by
    by_contra short
    have single : stepAt n = 1 := by
      rw [stepAt, show Nat.log2 n - 52 = 0 by omega]
    exact off (single ▸ Nat.one_dvd _)
  have small : m < (Nat.log2 n - 52 + 1) * binade := by
    by_contra large
    exact off (pow_dvd_unitsAt (Nat.le_of_not_lt large))
  have power : unitsAt ((Nat.log2 n - 52 + 1) * binade) = binade * stepAt n := by
    rw [Nat.succ_mul, unitsAt_steps (.inr (Nat.le_refl _)) (by decide), stepAt]
  refine ⟨power ▸ strictMono_unitsAt small, ?_⟩
  have pos : n ≠ 0 := by
    rintro rfl
    exact absurd long (by decide)
  calc binade * stepAt n = Nat.pow 2 (52 + (Nat.log2 n - 52)) := (Nat.pow_add 2 52 _).symm
    _ = Nat.pow 2 (Nat.log2 n) := by rw [Nat.add_sub_cancel' long.le]
    _ ≤ n := Nat.log2_self_le pos

/-- No double is nearer to a number of units than the one that it is rounded to, and if another one
is as near, the magnitude is even. -/
theorem dist_magnitudeOf {n : Nat} (range : Nat.log2 n < 2097) (m : Nat) :
    Nat.dist (unitsAt (magnitudeOf n 1)) n ≤ Nat.dist (unitsAt m) n ∧
      (Nat.dist (unitsAt m) n = Nat.dist (unitsAt (magnitudeOf n 1)) n →
        m = magnitudeOf n 1 ∨ magnitudeOf n 1 % 2 = 0) := by
  have units := unitsAt_magnitudeOf range
  have parity : magnitudeOf n 1 % 2 = roundDiv n (stepAt n) % 2 := by
    rw [magnitudeOf_one range]
    unfold binade
    omega
  by_cases multiple : stepAt n ∣ unitsAt m
  · obtain ⟨j, hj⟩ := multiple
    obtain ⟨least, tie⟩ := dist_roundDiv n j (stepAt_pos n)
    have same : j = roundDiv n (stepAt n) → m = magnitudeOf n 1 := by
      rintro rfl
      refine strictMono_unitsAt.injective ?_
      rw [units, hj, nearest, Nat.mul_comm]
    rw [hj, Nat.mul_comm, units, nearest, parity]
    exact ⟨least, fun h => (tie h).imp same id⟩
  · obtain ⟨below, le⟩ := unitsAt_lt_of_not_dvd multiple
    obtain ⟨least, -⟩ := dist_roundDiv n binade (stepAt_pos n)
    have farther : Nat.dist (unitsAt (magnitudeOf n 1)) n < Nat.dist (unitsAt m) n := by
      rw [units, nearest]
      refine Nat.lt_of_le_of_lt least ?_
      unfold Nat.dist
      omega
    exact ⟨farther.le, fun h => absurd h farther.ne'⟩

/-! ## Doubles -/

variable {x y : Binary64} {n : Int}

/-- A double is at least as far from an integer as their sizes are from each other. -/
theorem dist_le_distance (x : Binary64) (n : Int) :
    Nat.dist (unitsAt x.magnitude) (n.natAbs * oneUnits) ≤ x.distance n := by
  have size : (n * oneUnits).natAbs = n.natAbs * oneUnits := by
    rw [Int.natAbs_mul, Int.natAbs_natCast]
  rw [distance, signedUnits_eq, ← size]
  generalize n * (oneUnits : Int) = exact_
  unfold Nat.dist
  split <;> omega

theorem distance_eq (sign : x.negative = true ↔ n < 0) :
    x.distance n = Nat.dist (unitsAt x.magnitude) (n.natAbs * oneUnits) := by
  rw [distance, signedUnits_eq]
  unfold Nat.dist
  by_cases negative : n < 0
  · have size : n * oneUnits = -((n.natAbs * oneUnits : Nat) : Int) := by
      rw [Nat.cast_mul, ← Int.neg_mul, Int.natCast_natAbs, abs_of_neg negative, Int.neg_neg]
    rw [if_pos (sign.2 negative), size]
    omega
  · have size : n * oneUnits = ((n.natAbs * oneUnits : Nat) : Int) := by
      rw [Nat.cast_mul, Int.natCast_natAbs, abs_of_nonneg (Int.not_lt.1 negative)]
    rw [if_neg (mt sign.1 negative), size]
    omega

/-- An integer of up to 64 bits is rounded to the double that is nearest to it. -/
theorem isNearestTo_ofInt (h : n.natAbs ≤ 0x10000000000000000) : (ofInt n).IsNearestTo n := by
  have sign : (ofInt n).negative = true ↔ n < 0 := decide_eq_true_iff
  have magnitude : (ofInt n).magnitude = magnitudeOf (n.natAbs * oneUnits) 1 := rfl
  have grid := dist_magnitudeOf (log2_units_lt h)
  rw [← magnitude] at grid
  have nearest (y : Binary64) : (ofInt n).distance n ≤ y.distance n := by
    rw [distance_eq sign]
    exact (grid y.magnitude).1.trans (dist_le_distance y n)
  refine ⟨isFinite_ofInt h, fun y _ => nearest y, fun y _ same => (grid y.magnitude).2 ?_, sign⟩
  refine Nat.le_antisymm ?_ (grid y.magnitude).1
  rw [← distance_eq sign, ← same]
  exact dist_le_distance y n

theorem IsNearestTo.not_magnitude_lt (hx : x.IsNearestTo n) (hy : y.IsNearestTo n) :
    ¬ x.magnitude < y.magnitude := by
  intro less
  have tie : x.distance n = y.distance n :=
    Nat.le_antisymm (hx.nearest y hy.finite) (hy.nearest x hx.finite)
  have evenX : x.magnitude % 2 = 0 := (hx.even y hy.finite tie.symm).resolve_left less.ne'
  have evenY : y.magnitude % 2 = 0 := (hy.even x hx.finite tie).resolve_left less.ne
  -- Two even magnitudes have another one between them, and that double is nearer.
  have small : x.magnitude + 1 < infinite :=
    Nat.lt_of_le_of_lt less (of_decide_eq_true hy.finite)
  let z : Binary64 := ⟨x.negative, x.magnitude + 1, small.trans infinite_lt⟩
  have between : z.magnitude < y.magnitude := by
    show x.magnitude + 1 < y.magnitude
    omega
  have above := strictMono_unitsAt (show x.magnitude < z.magnitude from Nat.lt_succ_self _)
  have below := strictMono_unitsAt between
  have nearest := hx.nearest z (decide_eq_true small)
  rw [distance_eq hx.sign, distance_eq hy.sign] at tie
  rw [distance_eq hx.sign, distance_eq (x := z) hx.sign] at nearest
  unfold Nat.dist at tie nearest
  omega

/-- Only one double is the nearest to an integer. -/
theorem IsNearestTo.eq (hx : x.IsNearestTo n) (hy : y.IsNearestTo n) : x = y := by
  have magnitude : x.magnitude = y.magnitude :=
    Nat.le_antisymm (Nat.le_of_not_lt (hy.not_magnitude_lt hx))
      (Nat.le_of_not_lt (hx.not_magnitude_lt hy))
  have sign : x.negative = y.negative := Bool.eq_iff_iff.2 (hx.sign.trans hy.sign.symm)
  cases x
  cases y
  simp only at magnitude sign
  subst magnitude sign
  rfl

theorem isNearestTo_iff (h : n.natAbs ≤ 0x10000000000000000) : x.IsNearestTo n ↔ x = ofInt n :=
  ⟨fun nearest => nearest.eq (isNearestTo_ofInt h), fun same => same ▸ isNearestTo_ofInt h⟩

end FeatureFlags.Binary64
