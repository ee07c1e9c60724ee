import FeatureFlags.Proofs.Binary64.Sizes

/-!
# Powers of doubles

A power is computed by repeated squaring, where each product is rounded. The bounds of its factors
add up all the same (`AtLeast.powMul`, `AtMost.powMul`), as those of one product do. So a power of a
number that is at least 1 is at least 1 or infinite, and never NaN (`atLeast_pow`), and a power of a
number up to 2 is not infinite as long as the exponent is at most 1023 (`isInfinite_pow_of_le`). A
power of 2 is infinite from the exponent 1024 on (`isInfinite_two_pow_iff`).
-/

namespace FeatureFlags.Binary64

variable {x y r : Binary64} {a b n : Nat}

/-- The low bit of an exponent and the others. -/
theorem mul_exponent (b n : Nat) : b * (n % 2) + (b + b) * (n / 2) = b * n := by
  conv_rhs => rw [← Nat.mod_add_div n 2]
  ring

theorem AtLeast.mul_of_ge_one (hx : AtLeast (Nat.min (a + 1023) 2047) x)
    (hy : AtLeast (Nat.min (b + 1023) 2047) y) :
    AtLeast (Nat.min (a + b + 1023) 2047) (x.mul y) :=
  hx.mul hy (by grind) (by grind) (by grind) (by grind) (by grind)

/-- Lower bounds add up until they reach infinity. -/
theorem AtLeast.powMul (hr : AtLeast (Nat.min (a + 1023) 2047) r)
    (hx : AtLeast (Nat.min (b + 1023) 2047) x) (n : Nat) :
    AtLeast (Nat.min (a + b * n + 1023) 2047) (powMul r x n) := by
  have factor {a b : Nat} {r x : Binary64} {n : Nat} (hr : AtLeast (Nat.min (a + 1023) 2047) r)
      (hx : AtLeast (Nat.min (b + 1023) 2047) x) :
      AtLeast (Nat.min (a + b * (n % 2) + 1023) 2047) (if n % 2 = 1 then r.mul x else r) := by
    split
    · rename_i odd
      rw [odd, Nat.mul_one]
      exact hr.mul_of_ge_one hx
    · rename_i even
      rw [show n % 2 = 0 by omega]
      exact hr
  fun_induction Binary64.powMul r x n generalizing a b with
  | case1 r x n =>
    rename_i last
    rw [show n = n % 2 by omega]
    exact factor hr hx
  | case2 r x n _ more =>
    rename_i ih
    rw [← mul_exponent, ← Nat.add_assoc]
    exact ih (factor hr hx) (hx.mul_of_ge_one hx)

/-- Upper bounds add up as long as they stay below infinity. -/
theorem AtMost.powMul (hr : AtMost (a + 1023) r) (hx : AtMost (b + 1023) x)
    (fits : a + b * n ≤ 1023) : AtMost (a + b * n + 1023) (powMul r x n) := by
  have mul {a b : Nat} {x y : Binary64} (hx : AtMost (a + 1023) x) (hy : AtMost (b + 1023) y)
      (fits : a + b ≤ 1023) : AtMost (a + b + 1023) (x.mul y) :=
    hx.mul hy (by omega) (by omega) (by omega) (by omega) (by omega) (by omega)
  have factor {a b : Nat} {r x : Binary64} {n : Nat} (hr : AtMost (a + 1023) r)
      (hx : AtMost (b + 1023) x) (fits : a + b * (n % 2) ≤ 1023) :
      AtMost (a + b * (n % 2) + 1023) (if n % 2 = 1 then r.mul x else r) := by
    split
    · rename_i odd
      rw [odd, Nat.mul_one] at fits ⊢
      exact mul hr hx fits
    · rename_i even
      rw [show n % 2 = 0 by omega]
      exact hr
  fun_induction Binary64.powMul r x n generalizing a b with
  | case1 r x n =>
    rename_i last
    rw [show n = n % 2 by omega] at fits ⊢
    exact factor hr hx fits
  | case2 r x n _ more =>
    rename_i ih
    rw [← mul_exponent, ← Nat.add_assoc] at fits ⊢
    refine ih (factor hr hx (by omega)) (mul hx hx ?_) fits
    have := Nat.le_mul_of_pos_right (b + b) (Nat.pos_of_ne_zero more)
    omega

/-! ## Powers of one number -/

theorem atLeast_pow (hx : AtLeast (Nat.min (b + 1023) 2047) x) (n : Nat) :
    AtLeast (Nat.min (b * n + 1023) 2047) (x.pow n) := by
  have one : AtLeast (Nat.min (0 + 1023) 2047) one := atLeast_one
  have := one.powMul hx n
  rwa [Nat.zero_add] at this

theorem atMost_pow (hx : AtMost (b + 1023) x) (fits : b * n ≤ 1023) :
    AtMost (b * n + 1023) (x.pow n) := by
  have one : AtMost (0 + 1023) one := atMost_one
  have := one.powMul hx (by omega : 0 + b * n ≤ 1023)
  rwa [Nat.zero_add] at this

/-- A power of a number up to 2 does not overflow up to the exponent 1023. -/
theorem isInfinite_pow_of_le (hx : AtMost 1024 x) (fits : n ≤ 1023) :
    (x.pow n).isInfinite = false := by
  have := atMost_pow (b := 1) hx (by omega : 1 * n ≤ 1023)
  exact this.isInfinite_eq (by omega)

theorem isInfinite_two_pow_iff : ((ofNat 2).pow n).isInfinite = true ↔ 1024 ≤ n := by
  have most : AtMost 1024 (ofNat 2) := AtMost.ofNat (k := 1) (Nat.le_refl 2)
  have least : AtLeast (Nat.min (1 + 1023) 2047) (ofNat 2) :=
    AtLeast.ofNat (k := 1) (Nat.le_refl 2) (by decide)
  constructor
  · intro endless
    by_contra fits
    rw [isInfinite_pow_of_le most (by omega)] at endless
    cases endless
  · intro large
    have power := atLeast_pow least n
    rw [show Nat.min (1 * n + 1023) 2047 = 2047 from Nat.min_eq_right (by omega)] at power
    exact isInfinite_iff.2 (Nat.le_antisymm power.le_infinite power.le_magnitude)

end FeatureFlags.Binary64
