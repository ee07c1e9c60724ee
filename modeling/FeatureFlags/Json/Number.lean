import FeatureFlags.Binary64.Decimal
import FeatureFlags.Text.Digits

/-!
# Numbers of a JSON document

A number is an integer of the signed or unsigned 64-bit range or a finite double. Which of the two
a numeral names depends on its spelling: an integer numeral in the range is an integer, and every
other one is a double, `-0` among them.

`Numeral` is a numeral as it is spelt. Its double is found from a 64-bit significand and a decimal
exponent by one division or multiplication, so it can differ in the last place from the nearest one
when the numeral has very many digits.
-/

namespace FeatureFlags.Json

/-- The integers of up to 64 bits, signed or not. -/
def InRange (n : Int) : Prop := -0x8000000000000000 ≤ n ∧ n < 0x10000000000000000

instance (n : Int) : Decidable (InRange n) := inferInstanceAs (Decidable (_ ∧ _))

/-- A number of a document. -/
inductive Number where
  | integer (value : Int) (inRange : InRange value)
  | double (value : Double)
  deriving DecidableEq

namespace Number

theorem natAbs_le_of_inRange {n : Int} (h : InRange n) : n.natAbs ≤ 0x10000000000000000 := by
  unfold InRange at h
  omega

/-- The double nearest to a number. -/
def toDouble : Number → Double
  | integer n h => ⟨Binary64.ofInt n, Binary64.isFinite_ofInt (natAbs_le_of_inRange h)⟩
  | double x => x

/-- Equality of numbers: both zeros are equal, and an integer never equals a double. -/
def same : Number → Number → Bool
  | integer m _, integer n _ => m == n
  | double x, double y => x.same y
  | _, _ => false

/-- The layout of doubles in documents: positional from 10⁻⁵ up to 10¹⁶, with an exponent of
explicit sign beyond. -/
def style : DecimalStyle := ⟨-4, 16, true⟩

/-- The decimal digits of an integer, with its sign. -/
def renderInt (n : Int) : List Char :=
  (if n < 0 then ['-'] else []) ++ Nat.toDigits 10 n.natAbs

/-- The text of a number. -/
def render : Number → List Char
  | integer n _ => renderInt n
  | double x => style.render x.value

end Number

/-- A numeral as it is spelt: its sign, the digits before and after the point, and the exponent
with its own sign. -/
structure Numeral where
  negative : Bool
  whole : List Char
  fraction : Option (List Char)
  exponent : Option (Bool × List Char)

namespace Numeral

/-- Reads digits into a significand of 64 bits as long as they fit, and gives back the rest. -/
def accumulate (significand : Nat) : List Char → Nat × List Char
  | [] => (significand, [])
  | c :: rest =>
    let next := 10 * significand + Text.digitValue c
    if next < UInt64.size then accumulate next rest else (significand, c :: rest)

/-- A significand and the power of ten to be scaled by, if they are in the range of the doubles.
One step scales by a power of ten that is itself nearest to a double; below 10⁻³⁰⁸ it takes two. -/
def scale? (negative : Bool) (significand : Nat) (exponent : Int) : Option Double :=
  let signed (x : Binary64) : Binary64 := if negative then x.neg else x
  let power (n : Nat) : Binary64 := Binary64.ofNat (Nat.pow 10 n)
  let f := Binary64.ofNat significand
  if f.isZero then Double.ofBinary64? (signed .zero)
  else if 308 < exponent then none
  else if 0 ≤ exponent then Double.ofBinary64? (signed (f.mul (power exponent.toNat)))
  else if -308 ≤ exponent then Double.ofBinary64? (signed (f.div (power (-exponent).toNat)))
  else if -616 ≤ exponent then
    Double.ofBinary64? (signed ((f.div (power 308)).div (power (-exponent - 308).toNat)))
  else Double.ofBinary64? (signed .zero)

/-- The double that a numeral names. -/
def toDouble? (n : Numeral) : Option Double :=
  let (whole, uncounted) := accumulate 0 n.whole
  let fraction := n.fraction.getD []
  let (significand, unread) := accumulate whole fraction
  let exponent : Int := uncounted.length - ((fraction.length - unread.length : Nat) : Int)
  match n.exponent with
  | none => scale? n.negative significand exponent
  | some (negative, digits) =>
    let size := Text.decimalValue digits
    scale? n.negative significand (if negative then exponent - size else exponent + size)

/-- The number that a numeral names, if it is in the range of the doubles. -/
def toNumber? (n : Numeral) : Option Number :=
  if n.fraction.isNone && n.exponent.isNone then
    let size := Text.decimalValue n.whole
    let value : Int := if n.negative then -size else size
    if h : Json.InRange value then
      if n.negative && size == 0 then n.toDouble?.map .double else some (.integer value h)
    else n.toDouble?.map .double
  else n.toDouble?.map .double

end Numeral

end FeatureFlags.Json
