import FeatureFlags.Text.Printable

/-!
# Quoted texts

Two ways to write a text between double quotes.

`quoteJson` is the form of a JSON document: a quote, a backslash and the controls below the blank
are escaped and every other character stands for itself, so the quoted form determines the text.

`quoted` is the form of diagnostics, where in addition every character that would not be seen is
written as its code point in hexadecimal.
-/

namespace FeatureFlags.Text

/-- One of the sixteen hexadecimal digits, in lower case. -/
def hexDigit (n : Nat) : Char := Nat.digitChar (n % 16)

/-- A number in hexadecimal without leading zeros. -/
def hex (n : Nat) : List Char := Nat.toDigits 16 n

/-- A character inside a quoted text of a JSON document. -/
def escapeJson (c : Char) : List Char :=
  if c = '"' then ['\\', '"']
  else if c = '\\' then ['\\', '\\']
  else if 32 ≤ c.toNat then [c]
  else if c = '\n' then ['\\', 'n']
  else if c = '\r' then ['\\', 'r']
  else if c = '\t' then ['\\', 't']
  else if c.toNat = 8 then ['\\', 'b']
  else if c.toNat = 12 then ['\\', 'f']
  else ['\\', 'u', '0', '0', hexDigit (c.toNat / 16), hexDigit c.toNat]

/-- A text as a JSON document writes it. -/
def quoteJson (s : String) : List Char := '"' :: (s.toList.flatMap escapeJson ++ ['"'])

/-- A character inside a quoted text of a diagnostic. -/
def escapeShown (c : Char) : List Char :=
  if c = '"' then ['\\', '"']
  else if c = '\\' then ['\\', '\\']
  else if c = '\n' then ['\\', 'n']
  else if c = '\r' then ['\\', 'r']
  else if c = '\t' then ['\\', 't']
  else if c.toNat = 0 then ['\\', '0']
  else if isPrintable c then [c]
  else '\\' :: 'u' :: '\x7b' :: (hex c.toNat ++ ['\x7d'])

/-- A text as a diagnostic shows it. -/
def quoted (s : String) : String :=
  String.ofList ('"' :: (s.toList.flatMap escapeShown ++ ['"']))

/-- A file's path as a diagnostic shows it; the single quote is escaped too. -/
def quotedPath (s : String) : String :=
  let escape (c : Char) := if c = '\'' then ['\\', '\''] else escapeShown c
  String.ofList ('"' :: (s.toList.flatMap escape ++ ['"']))

end FeatureFlags.Text
