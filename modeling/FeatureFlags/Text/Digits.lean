/-!
# Digits

The values of digits and of the numbers that they spell, and numbers below a bound.
-/

namespace FeatureFlags.Text

/-- The value of a hexadecimal digit of either case. -/
def hexValue? (c : Char) : Option Nat :=
  if c.isDigit then some (c.toNat - '0'.toNat)
  else if 'a' ≤ c ∧ c ≤ 'f' then some (c.toNat - 'a'.toNat + 10)
  else if 'A' ≤ c ∧ c ≤ 'F' then some (c.toNat - 'A'.toNat + 10)
  else none

/-- The value of a decimal digit. -/
def digitValue (c : Char) : Nat := c.toNat - '0'.toNat

/-- The number that decimal digits spell. -/
def decimalValue (digits : List Char) : Nat :=
  digits.foldl (fun n c => 10 * n + digitValue c) 0

/-- The number that hexadecimal digits, or those of a smaller base, spell. -/
def valueInBase (base : Nat) (digits : List Char) : Nat :=
  digits.foldl (fun n c => base * n + (hexValue? c).getD 0) 0

/-- A whole number as a natural number below a bound. -/
def below? (bound : Nat) (n : Int) : Option (Fin bound) :=
  if h : 0 ≤ n ∧ n.toNat < bound then some ⟨n.toNat, h.2⟩ else none

end FeatureFlags.Text
