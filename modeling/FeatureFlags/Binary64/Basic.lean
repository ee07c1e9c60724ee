/-!
# Double-precision numbers

A `Binary64` is a sign and a magnitude of 63 bits. The magnitude orders the non-negative doubles:
zero is 0, each next double is one more, infinity is `infinite` and what lies above it is no
number. So two numbers compare as their `ordinal`s, the signed magnitudes, and both zeros compare
equal.

A finite double is a whole number of `units`, steps of the least positive double (2⁻¹⁰⁷⁴).
`ofUnits` rounds an exact quotient of units to the nearest double, ties to the even one, and each
operation rounds its exact result once.
-/

namespace FeatureFlags

/-- A double-precision number of IEEE 754, by sign and magnitude. -/
structure Binary64 where
  negative : Bool
  magnitude : Nat
  magnitude_lt : magnitude < 0x8000000000000000
  deriving DecidableEq

namespace Binary64

/-- The number of magnitudes from one power of two up to the next, which is 2⁵². -/
abbrev binade : Nat := 0x10000000000000

/-- The weight of the sign, which is 2⁶³. -/
abbrev signBit : Nat := 0x8000000000000000

/-- The magnitude of infinity. -/
def infinite : Nat := 2047 * binade

theorem infinite_lt : infinite < signBit := by decide

/-- Neither infinite nor NaN. -/
def isFinite (x : Binary64) : Bool := x.magnitude < infinite

def isNaN (x : Binary64) : Bool := infinite < x.magnitude

def isInfinite (x : Binary64) : Bool := x.magnitude == infinite

/-- Either zero. -/
def isZero (x : Binary64) : Bool := x.magnitude == 0

/-- The zero with a sign. -/
def signedZero (negative : Bool) : Binary64 := ⟨negative, 0, by decide⟩

def zero : Binary64 := signedZero false

def nan : Binary64 := ⟨false, infinite + binade / 2, by decide⟩

def infinity (negative : Bool) : Binary64 := ⟨negative, infinite, infinite_lt⟩

instance : Inhabited Binary64 := ⟨zero⟩

/-- The 64 bits of the interchange format, as a number. -/
def toBits (x : Binary64) : Nat := (if x.negative then signBit else 0) + x.magnitude

/-- The double of the given 64 bits; higher bits are dropped. -/
def ofBits (bits : Nat) : Binary64 :=
  ⟨bits / signBit % 2 == 1, bits % signBit, Nat.mod_lt _ (by decide)⟩

/-- Where a number stands in the order of the doubles; both zeros stand at 0. -/
def ordinal (x : Binary64) : Int := if x.negative then -(x.magnitude : Int) else x.magnitude

/-- How two doubles compare; NaN compares with nothing. -/
def compare? (x y : Binary64) : Option Ordering :=
  if x.isNaN || y.isNaN then none else some (compare x.ordinal y.ordinal)

/-- Strictly less; false when either is NaN. -/
def lt (x y : Binary64) : Bool := x.compare? y == some .lt

/-- The smaller number; NaN only if both are. -/
def min (x y : Binary64) : Binary64 :=
  if x.isNaN then y else if y.isNaN then x else if y.lt x then y else x

/-- The larger number; NaN only if both are. -/
def max (x y : Binary64) : Binary64 :=
  if x.isNaN then y else if y.isNaN then x else if x.lt y then y else x

def neg (x : Binary64) : Binary64 := ⟨!x.negative, x.magnitude, x.magnitude_lt⟩

/-- The size of a finite double in steps of 2⁻¹⁰⁷⁴. -/
def units (x : Binary64) : Nat :=
  if x.magnitude < binade then x.magnitude
  else (x.magnitude % binade + binade) * Nat.pow 2 (x.magnitude / binade - 1)

/-- The quotient `n / d` rounded to the nearest whole number, ties to even. -/
def roundDiv (n d : Nat) : Nat :=
  let q := n / d
  let r := n % d
  if 2 * r < d then q else if d < 2 * r then q + 1 else q + q % 2

/-- The magnitude nearest to `n / d` units. The doubles from 2ˢ⁺⁵² units on stand 2ˢ units apart,
and there are 2⁵² of them before the distance doubles, so a rounded count of steps is itself a
distance in the order of the doubles. -/
def magnitudeOf (n d : Nat) : Nat :=
  let s := Nat.log2 (n / d) - 52
  Nat.min (s * binade + roundDiv n (d * Nat.pow 2 s)) infinite

/-- The double nearest to `n / d` units, ties to the even magnitude; infinity beyond the range. -/
def ofUnits (negative : Bool) (n d : Nat) : Binary64 :=
  ⟨negative, magnitudeOf n d, Nat.lt_of_le_of_lt (Nat.min_le_right _ _) infinite_lt⟩

theorem roundDiv_le (n d : Nat) : roundDiv n d ≤ n / d + 1 := by
  unfold roundDiv
  dsimp only
  split
  · omega
  · split
    · omega
    · have := Nat.mod_lt (n / d) (show 0 < 2 by decide)
      omega

/-- A quotient below 2ᵏ units has a magnitude of at most (k - 51) 2⁵². -/
theorem magnitudeOf_le {n d k : Nat} (h : n / d < Nat.pow 2 k) (hk : 53 ≤ k) :
    magnitudeOf n d ≤ (k - 51) * binade := by
  unfold magnitudeOf
  dsimp only
  refine Nat.le_trans (Nat.min_le_left _ _) ?_
  have hlog : Nat.log2 (n / d) < k := by
    by_cases h0 : n / d = 0
    · simp only [h0, Nat.log2_zero]
      omega
    · exact (Nat.log2_lt h0).2 h
  clear h
  generalize hsv : Nat.log2 (n / d) - 52 = s
  have hs : s ≤ k - 53 := by omega
  have hsmall : n / (d * Nat.pow 2 s) < 2 * binade := by
    rw [← Nat.div_div_eq_div_mul]
    apply Nat.div_lt_of_lt_mul
    have hpow : Nat.pow 2 s * (2 * binade) = Nat.pow 2 (s + 53) := (Nat.pow_add 2 s 53).symm
    rw [hpow]
    by_cases h0 : n / d = 0
    · rw [h0]
      exact Nat.two_pow_pos _
    · refine (Nat.log2_lt h0).1 ?_
      omega
  have hr := roundDiv_le n (d * Nat.pow 2 s)
  generalize n / (d * Nat.pow 2 s) = q at hr hsmall
  have hmul : s * binade ≤ (k - 53) * binade := Nat.mul_le_mul_right _ hs
  have hsum : (k - 51) * binade = (k - 53) * binade + 2 * binade := by
    rw [show k - 51 = k - 53 + 2 by omega, Nat.add_mul]
  rw [hsum]
  exact Nat.add_le_add hmul (Nat.le_trans hr hsmall)

/-- The number of units in 1. -/
def oneUnits : Nat := Nat.pow 2 1074

/-- The double nearest to a natural number. -/
def ofNat (n : Nat) : Binary64 := ofUnits false (n * oneUnits) 1

/-- The double nearest to an integer. -/
def ofInt (n : Int) : Binary64 := ofUnits (decide (n < 0)) (n.natAbs * oneUnits) 1

/-- Integers of up to 64 bits are in the range of the doubles. -/
theorem isFinite_ofInt {n : Int} (h : n.natAbs ≤ 0x10000000000000000) :
    (ofInt n).isFinite = true := by
  have hq : ∀ k, n.natAbs * Nat.pow 2 k / 1 < Nat.pow 2 (65 + k) := fun k => by
    rw [Nat.div_one, show Nat.pow 2 (65 + k) = Nat.pow 2 65 * Nat.pow 2 k from Nat.pow_add 2 65 k]
    exact Nat.mul_lt_mul_of_pos_right (Nat.lt_of_le_of_lt h (by decide)) (Nat.two_pow_pos _)
  have hm : ∀ k, magnitudeOf (n.natAbs * Nat.pow 2 k) 1 ≤ (65 + k - 51) * binade := fun k =>
    magnitudeOf_le (hq k) (by omega)
  have hlt : (65 + 1074 - 51) * binade < infinite := by decide
  unfold ofInt ofUnits oneUnits isFinite
  exact decide_eq_true (Nat.lt_of_le_of_lt (hm 1074) hlt)

def one : Binary64 := ofNat 1

def mul (x y : Binary64) : Binary64 :=
  let negative := x.negative != y.negative
  if x.isNaN || y.isNaN then nan
  else if x.isInfinite || y.isInfinite then
    if x.isZero || y.isZero then nan else infinity negative
  else ofUnits negative (x.units * y.units) oneUnits

def div (x y : Binary64) : Binary64 :=
  let negative := x.negative != y.negative
  if x.isNaN || y.isNaN then nan
  else if x.isInfinite then if y.isInfinite then nan else infinity negative
  else if y.isInfinite then signedZero negative
  else if y.isZero then if x.isZero then nan else infinity negative
  else ofUnits negative (x.units * oneUnits) y.units

/-- The value of a finite double in units, with its sign. -/
def signedUnits (x : Binary64) : Int := if x.negative then -(x.units : Int) else x.units

/-- The sum; an exact zero is negative only if both terms are. -/
def add (x y : Binary64) : Binary64 :=
  if x.isNaN || y.isNaN then nan
  else if x.isInfinite then
    if y.isInfinite && x.negative != y.negative then nan else x
  else if y.isInfinite then y
  else
    let sum := x.signedUnits + y.signedUnits
    if sum = 0 then signedZero (x.negative && y.negative)
    else ofUnits (decide (sum < 0)) sum.natAbs 1

/-- `r * x ^ n` by repeated squaring, each product rounded, the low bits of `n` first. -/
def powMul (r x : Binary64) (n : Nat) : Binary64 :=
  let r := if n % 2 = 1 then r.mul x else r
  if n / 2 = 0 then r else powMul r (x.mul x) (n / 2)
termination_by n
decreasing_by omega

/-- `x ^ n` by repeated squaring, each product rounded. -/
def pow (x : Binary64) (n : Nat) : Binary64 := powMul one x n

end Binary64

/-- A double that a document can write: neither infinite nor NaN. -/
structure Double where
  value : Binary64
  finite : value.isFinite = true
  deriving DecidableEq

namespace Double

def zero : Double := ⟨.zero, by decide⟩

instance : Inhabited Double := ⟨zero⟩

/-- Numeric equality, in which both zeros are equal. -/
def same (x y : Double) : Bool := x.value.ordinal == y.value.ordinal

/-- A double of the wider type, unless it is infinite or NaN. -/
def ofBinary64? (x : Binary64) : Option Double :=
  if h : x.isFinite = true then some ⟨x, h⟩ else none

end Double

end FeatureFlags
