import FeatureFlags.Binary64.Basic

/-!
# Decimal texts of doubles

`shortest` gives the decimal of fewest digits that reads back as a finite positive double, and of
those the nearest one. A decimal reads back if it lies between the midpoints to the two neighbours,
where a midpoint itself goes to the even magnitude. On a decimal grid the two points around the
double are the nearest ones, so the first grid on which one of them lies in the interval gives the
answer; with 17 digits a grid always does.

`DecimalStyle` says how a text of those digits is laid out.
-/

namespace FeatureFlags

namespace Binary64

/-- A decimal number `digits * 10 ^ exponent`. -/
structure Decimal where
  digits : Nat
  exponent : Int
  deriving DecidableEq

/-- The interval of the reals that round to a double, in quarters of a unit. -/
structure Rounding where
  low : Nat
  value : Nat
  high : Nat
  /-- Whether the ends belong to the interval. -/
  closed : Bool

/-- The reals that round to the finite double `x`. Below a power of two the neighbour is half as
far as above it. -/
def rounding (x : Binary64) : Rounding :=
  let gap := Nat.pow 2 (x.magnitude / binade - 1)
  let value := 4 * x.units
  let below := if x.magnitude % binade = 0 ∧ 2 * binade ≤ x.magnitude then gap else 2 * gap
  ⟨value - below, value, value + 2 * gap, x.magnitude % 2 == 0⟩

/-- The number of quarter units in 1. -/
def oneQuarters : Nat := 4 * oneUnits

/-- The number of decimal digits of `n`, none for zero. -/
def digitCount (n : Nat) : Nat := if n = 0 then 0 else (Nat.toDigits 10 n).length

/-- How many places the point of `0.d₁d₂…` has to move left for a quotient below 1, tried from
`place` on, `fuel` places. -/
def leadingZeros (value : Nat) : Nat → Nat → Nat
  | 0, place => place
  | fuel + 1, place =>
    if oneQuarters ≤ value * Nat.pow 10 (place + 1) then place
    else leadingZeros value fuel (place + 1)

/-- The place `p` with `10 ^ (p - 1) ≤ value < 10 ^ p`, for a positive number of quarter units. -/
def pointOf (value : Nat) : Int :=
  if oneQuarters ≤ value then digitCount (value / oneQuarters)
  else -(leadingZeros value 400 0 : Int)

/-- The point of the grid of step `10 ^ exponent` that rounds to the double and is nearest to it,
if one of the two points around the double does. -/
def onGrid? (r : Rounding) (exponent : Int) : Option Decimal :=
  let scale := Nat.pow 10 (-exponent).toNat
  let step := oneQuarters * Nat.pow 10 exponent.toNat
  let value := r.value * scale
  let inside (c : Nat) : Bool :=
    if r.closed then r.low * scale ≤ c * step && c * step ≤ r.high * scale
    else r.low * scale < c * step && c * step < r.high * scale
  let c := value / step
  let below := value - c * step
  let above := (c + 1) * step - value
  let upper := if below == above then c % 2 == 1 else above < below
  if inside c && (!inside (c + 1) || !upper) && c != 0 then some ⟨c, exponent⟩
  else if inside (c + 1) then some ⟨c + 1, exponent⟩
  else none

/-- The first grid of `count`, `count + 1`, … digits with a point that reads back, up to `fuel`
grids. -/
def firstGrid (r : Rounding) (point : Int) : Nat → Nat → Decimal
  | 0, count => ⟨r.value * Nat.pow 10 (count - point).toNat / oneQuarters, point - count⟩
  | fuel + 1, count =>
    match onGrid? r (point - count) with
    | some d => d
    | none => firstGrid r point fuel (count + 1)

/-- The shortest decimal that reads back as the finite positive double `x`. -/
def shortest (x : Binary64) : Decimal :=
  let r := x.rounding
  firstGrid r (pointOf r.value) 17 1

end Binary64

/-- How the text of a double is laid out: positionally where the point of `0.d₁d₂…` stands in the
given range, with an exponent elsewhere. -/
structure DecimalStyle where
  leastPoint : Int
  greatestPoint : Int
  /-- Whether a positive exponent has a sign. -/
  plus : Bool

namespace DecimalStyle

/-- The digits of a decimal without the zeros at its end. -/
def significant (digits : Nat) : List Char :=
  ((Nat.toDigits 10 digits).reverse.dropWhile (· == '0')).reverse

/-- Digits `0.d₁d₂… * 10 ^ point` in positional notation, with at least one digit on each side of
the point. -/
def positional (digits : List Char) (point : Int) : List Char :=
  if point ≤ 0 then '0' :: '.' :: (List.replicate (-point).toNat '0' ++ digits)
  else
    let whole := digits.take point.toNat
    let fraction := digits.drop point.toNat
    whole ++ List.replicate (point.toNat - digits.length) '0' ++
      '.' :: (if fraction.isEmpty then ['0'] else fraction)

/-- Digits `0.d₁d₂… * 10 ^ point` with one digit before the point and an exponent. -/
def scientific (style : DecimalStyle) (digits : List Char) (point : Int) : List Char :=
  let exponent := point - 1
  let sign := if exponent < 0 then ['-'] else if style.plus then ['+'] else []
  let mantissa := match digits with
    | [] => ['0']
    | [d] => [d]
    | d :: rest => d :: '.' :: rest
  mantissa ++ 'e' :: (sign ++ Nat.toDigits 10 exponent.natAbs)

/-- The text of a double in the given style. -/
def render (style : DecimalStyle) (x : Binary64) : List Char :=
  let sign := if x.negative then ['-'] else []
  if x.isNaN then "NaN".toList
  else if x.isInfinite then sign ++ "inf".toList
  else if x.isZero then sign ++ "0.0".toList
  else
    let d := x.shortest
    let digits := significant d.digits
    let point := (Nat.toDigits 10 d.digits).length + d.exponent
    sign ++
      if style.leastPoint ≤ point ∧ point ≤ style.greatestPoint then positional digits point
      else style.scientific digits point

end DecimalStyle

end FeatureFlags
