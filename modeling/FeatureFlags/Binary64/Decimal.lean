import FeatureFlags.Binary64.Shortest
import FeatureFlags.Text.Digits

/-!
# Reading decimal texts

`Binary64.ofDecimal` is the double nearest to a decimal number, rounded once. `Binary64.parse?`
reads a decimal text with an optional sign, point and exponent, and the words for infinity and NaN
in any letter case.
-/

namespace FeatureFlags

namespace Binary64

/-- The double nearest to `digits * 10 ^ exponent`. Beyond 10³⁴⁰ and below 10⁻³⁴⁰ the answer is
infinity and zero, whatever the digits. -/
def ofDecimal (negative : Bool) (d : Decimal) : Binary64 :=
  let point := digitCount d.digits + d.exponent
  if d.digits = 0 ∨ point < -340 then signedZero negative
  else if 340 < point then infinity negative
  else
    ofUnits negative (d.digits * Nat.pow 10 d.exponent.toNat * oneUnits)
      (Nat.pow 10 (-d.exponent).toNat)

/-- An exponent after its letter: an optional sign and at least one digit, to the end. -/
def parseExponent? (cs : List Char) : Option Int :=
  let (negative, digits) := match cs with
    | '-' :: rest => (true, rest)
    | '+' :: rest => (false, rest)
    | rest => (false, rest)
  if digits.isEmpty || !digits.all Char.isDigit then none
  else
    let n : Int := Text.decimalValue digits
    some (if negative then -n else n)

/-- An unsigned number or word, read to its end. -/
def parseUnsigned? (negative : Bool) (cs : List Char) : Option Binary64 :=
  let word := String.ofList (cs.map Char.toLower)
  if word == "inf" || word == "infinity" then some (infinity negative)
  else if word == "nan" then some nan
  else
    let whole := cs.takeWhile Char.isDigit
    let rest := cs.dropWhile Char.isDigit
    let (fraction, rest) := match rest with
      | '.' :: more => (more.takeWhile Char.isDigit, more.dropWhile Char.isDigit)
      | other => ([], other)
    if whole.isEmpty && fraction.isEmpty then none
    else
      let number (exponent : Int) : Binary64 :=
        ofDecimal negative ⟨Text.decimalValue (whole ++ fraction), exponent - fraction.length⟩
      match rest with
      | [] => some (number 0)
      | c :: more =>
        if c == 'e' || c == 'E' then (parseExponent? more).map number else none

/-- The number that a decimal text names, rounded to the nearest double. -/
def parse? (s : String) : Option Binary64 :=
  match s.toList with
  | '-' :: rest => parseUnsigned? true rest
  | '+' :: rest => parseUnsigned? false rest
  | cs => parseUnsigned? false cs

end Binary64

end FeatureFlags
