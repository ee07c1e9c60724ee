import FeatureFlags.Text.Utf8

/-!
# The encoding of forms

The encoding of a text as part of the query of an address. Letters and digits of ASCII and the marks
`*`, `-`, `.` and `_` stand for themselves, a blank becomes a plus sign, and each other byte of the
UTF-8 form becomes a percent sign with two hexadecimal digits.
-/

namespace FeatureFlags.Text

/-- Whether a byte stands for itself. -/
def isPlainByte (b : UInt8) : Bool :=
  let c := Char.ofNat b.toNat
  b < 0x80 && (c.isAlphanum || c == '*' || c == '-' || c == '.' || c == '_')

/-- A hexadecimal digit, in upper case. -/
def upperHexDigit (n : Nat) : Char := (Nat.digitChar n).toUpper

/-- The encoding of a byte. -/
def formByte (b : UInt8) : List Char :=
  if isPlainByte b then [Char.ofNat b.toNat]
  else if b = 0x20 then ['+']
  else ['%', upperHexDigit (b.toNat / 16), upperHexDigit (b.toNat % 16)]

/-- The encoding of a text. -/
def formEncoded (s : String) : String := String.ofList ((Utf8.encode s).flatMap formByte)

end FeatureFlags.Text
