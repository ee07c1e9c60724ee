import FeatureFlags.Binary64.Decimal
import FeatureFlags.Config.Toml.Item
import FeatureFlags.Text.Digits
import FeatureFlags.Timestamp

/-!
# Scalars of TOML

Keys, strings, numbers and times. Each function takes what it is named for off the start of a text
and gives it with the rest, or fails.
-/

namespace FeatureFlags.Toml

/-- Takes a value off the start of a text. -/
abbrev Scan (α : Type) := List Char → Option (α × List Char)

/-- Characters that stand for themselves in comments and strings: the tab, what can be printed, and
everything that is not ASCII. -/
def isPlain (c : Char) : Bool := c == '\t' || (32 ≤ c.toNat && c.toNat != 127)

/-- The text without the blanks and tabs at its start. -/
def skipBlanks (cs : List Char) : List Char := cs.dropWhile fun c => c == ' ' || c == '\t'

/-- A line end, as one line feed. -/
def newline? : List Char → Option (List Char)
  | '\n' :: rest => some rest
  | '\r' :: '\n' :: rest => some rest
  | _ => none

/-- The text behind a comment, if it starts with one. -/
def skipComment : List Char → List Char
  | '#' :: rest => rest.dropWhile isPlain
  | cs => cs

/-! ## Strings -/

/-- The character with a code point of `count` hexadecimal digits. -/
def codePoint (count : Nat) : Scan Char := fun cs => do
  let digits ← (cs.take count).mapM Text.hexValue?
  let n := digits.foldl (fun n d => 16 * n + d) 0
  if digits.length = count ∧ n.isValidChar then some (Char.ofNat n, cs.drop count) else none

/-- What a letter behind a backslash stands for. -/
def escape : Scan Char
  | 'b' :: rest => some ('\x08', rest)
  | 't' :: rest => some ('\t', rest)
  | 'n' :: rest => some ('\n', rest)
  | 'f' :: rest => some ('\x0c', rest)
  | 'r' :: rest => some ('\r', rest)
  | '"' :: rest => some ('"', rest)
  | '\\' :: rest => some ('\\', rest)
  | 'u' :: rest => codePoint 4 rest
  | 'U' :: rest => codePoint 8 rest
  | _ => none

/-- A string in double quotes, behind the opening one. Each character takes a unit of fuel. -/
def basicString : Nat → Scan (List Char)
  | 0, _ => none
  | fuel + 1, cs =>
    match cs with
    | [] => none
    | c :: rest =>
      if c = '"' then some ([], rest)
      else if c = '\\' then do
        let (x, rest) ← escape rest
        let (more, rest) ← basicString fuel rest
        return (x :: more, rest)
      else if isPlain c then do
        let (more, rest) ← basicString fuel rest
        return (c :: more, rest)
      else none

/-- A string in single quotes, behind the opening one. -/
def literalString : Scan (List Char)
  | [] => none
  | c :: rest =>
    if c = '\'' then some ([], rest)
    else if isPlain c then (literalString rest).map fun (more, rest) => (c :: more, rest)
    else none

/-- Three quotes, if a text starts with them: up to two more belong to the string they close. -/
def closing? (quote : Char) (cs : List Char) : Option (List Char × List Char) :=
  let count := (cs.takeWhile (· == quote)).length
  if 3 ≤ count then
    let kept := Nat.min (count - 3) 2
    some (List.replicate kept quote, cs.drop (kept + 3))
  else none

/-- The text behind all blanks and line ends at its start. -/
def skipLines : List Char → List Char
  | [] => []
  | '\r' :: '\n' :: rest => skipLines rest
  | c :: rest => if c = ' ' ∨ c = '\t' ∨ c = '\n' then skipLines rest else c :: rest

/-- A string of several lines in double quotes, behind the opening ones. A backslash at the end of a
line joins it with the next one. -/
def longBasicString : Nat → Scan (List Char)
  | 0, _ => none
  | fuel + 1, cs =>
    match closing? '"' cs with
    | some found => some found
    | none =>
      match newline? cs with
      | some rest => (longBasicString fuel rest).map fun (more, rest) => ('\n' :: more, rest)
      | none =>
        match cs with
        | [] => none
        | c :: rest =>
          if c = '\\' then
            match newline? (skipBlanks rest) with
            | some rest => longBasicString fuel (skipLines rest)
            | none => do
              let (x, rest) ← escape rest
              let (more, rest) ← longBasicString fuel rest
              return (x :: more, rest)
          else if isPlain c then do
            let (more, rest) ← longBasicString fuel rest
            return (c :: more, rest)
          else none

/-- A string of several lines in single quotes, behind the opening ones. -/
def longLiteralString : Nat → Scan (List Char)
  | 0, _ => none
  | fuel + 1, cs =>
    match closing? '\'' cs with
    | some found => some found
    | none =>
      match newline? cs with
      | some rest => (longLiteralString fuel rest).map fun (more, rest) => ('\n' :: more, rest)
      | none =>
        match cs with
        | [] => none
        | c :: rest =>
          if isPlain c then
            (longLiteralString fuel rest).map fun (more, rest) => (c :: more, rest)
          else none

/-- A string on one line. -/
def shortString : Scan String
  | '"' :: rest => (basicString (rest.length + 1) rest).map fun (s, rest) => (.ofList s, rest)
  | '\'' :: rest => (literalString rest).map fun (s, rest) => (.ofList s, rest)
  | _ => none

/-- A string. A line end right behind three opening quotes does not belong to it. -/
def string : Scan String
  | '"' :: '"' :: '"' :: rest =>
    let rest := (newline? rest).getD rest
    (longBasicString (rest.length + 1) rest).map fun (s, rest) => (.ofList s, rest)
  | '\'' :: '\'' :: '\'' :: rest =>
    let rest := (newline? rest).getD rest
    (longLiteralString (rest.length + 1) rest).map fun (s, rest) => (.ofList s, rest)
  | cs => shortString cs

/-! ## Keys -/

/-- A character of a key without quotes. -/
def isBare (c : Char) : Bool := c.isAlphanum || c == '_' || c == '-'

/-- One part of a key. -/
def simpleKey : Scan String := fun cs =>
  match cs with
  | [] => none
  | c :: _ =>
    if c = '"' ∨ c = '\'' then shortString cs
    else
      match cs.takeWhile isBare with
      | [] => none
      | name => some (.ofList name, cs.dropWhile isBare)

/-- The parts of a dotted key, with blanks around them. Each part takes a unit of fuel. -/
def keyParts : Nat → Scan (List String)
  | 0, _ => none
  | fuel + 1, cs => do
    let (name, rest) ← simpleKey (skipBlanks cs)
    match skipBlanks rest with
    | '.' :: rest => do
      let (more, rest) ← keyParts fuel rest
      return (name :: more, rest)
    | rest => return ([name], rest)

/-- A dotted key of fewer than 80 parts. -/
def key : Scan (List String) := fun cs =>
  (keyParts (cs.length + 1) cs).filter fun (parts, _) => parts.length < 80

/-! ## Numbers and times -/

/-- The digits behind a first one. An underscore may stand between two digits. -/
def moreDigits (ok : Char → Bool) : Scan (List Char)
  | [] => some ([], [])
  | '_' :: c :: rest =>
    if ok c then (moreDigits ok rest).map fun (more, rest) => (c :: more, rest) else none
  | c :: rest =>
    if ok c then (moreDigits ok rest).map fun (more, rest) => (c :: more, rest)
    else if c = '_' then none
    else some ([], c :: rest)

/-- Digits, at least one. -/
def digits (ok : Char → Bool) : Scan (List Char)
  | [] => none
  | c :: rest =>
    if ok c then (moreDigits ok rest).map fun (more, rest) => (c :: more, rest) else none

/-- A sign, if there is one. -/
def sign : List Char → List Char × List Char
  | '+' :: rest => ([], rest)
  | '-' :: rest => (['-'], rest)
  | cs => ([], cs)

/-- The digits of a decimal integer; a zero in front stands alone. -/
def wholeDigits : Scan (List Char)
  | '0' :: rest => some (['0'], rest)
  | cs => digits Char.isDigit cs

/-- An exponent behind its letter. -/
def exponent : Scan (List Char) := fun cs => do
  let (minus, rest) := sign cs
  let (ds, rest) ← digits Char.isDigit rest
  return ('e' :: (minus ++ ds), rest)

/-- An exponent, if there is one. -/
def exponent? : Scan (List Char)
  | [] => some ([], [])
  | c :: rest => if c = 'e' ∨ c = 'E' then exponent rest else some ([], c :: rest)

/-- A number with a point or an exponent, or the words for infinity and what is no number. A number
above the range of the doubles is refused. -/
def float : Scan Item := fun cs =>
  let (minus, rest) := sign cs
  match rest with
  | 'i' :: 'n' :: 'f' :: rest => some (.float (.ofList (minus ++ ['i', 'n', 'f'])), rest)
  | 'n' :: 'a' :: 'n' :: rest => some (.float (.ofList (minus ++ ['n', 'a', 'n'])), rest)
  | rest => do
    let (whole, rest) ← wholeDigits rest
    let (text, rest) ← match rest with
      | '.' :: rest => do
        let (fraction, rest) ← digits Char.isDigit rest
        let (power, rest) ← exponent? rest
        some (minus ++ whole ++ '.' :: (fraction ++ power), rest)
      | rest => do
        let (power, rest) ← exponent? rest
        if power.isEmpty then none else some (minus ++ whole ++ power, rest)
    let value ← Binary64.parse? (.ofList text)
    if value = .infinity false then none else some (.float (.ofList text), rest)

/-- An integer of the signed 64-bit range. -/
def inRange (n : Int) (rest : List Char) : Option (Item × List Char) :=
  if -0x8000000000000000 ≤ n ∧ n < 0x8000000000000000 then some (.integer n, rest) else none

/-- An unsigned integer behind the mark of its base. -/
def integerInBase (base : Nat) : Scan Item := fun cs => do
  let (ds, rest) ← digits (fun c => (Text.hexValue? c).any (· < base)) cs
  inRange (Text.valueInBase base ds) rest

/-- An integer. -/
def integer : Scan Item
  | '0' :: 'x' :: rest => integerInBase 16 rest
  | '0' :: 'o' :: rest => integerInBase 8 rest
  | '0' :: 'b' :: rest => integerInBase 2 rest
  | cs => do
    let (minus, rest) := sign cs
    let (ds, rest) ← wholeDigits rest
    let n : Int := Text.decimalValue ds
    inRange (if minus.isEmpty then n else -n) rest

/-- A number of exactly `count` digits within bounds. -/
def field (count least greatest : Nat) : Scan Nat := fun cs =>
  let ds := cs.take count
  let n := Text.decimalValue ds
  if ds.length = count ∧ ds.all Char.isDigit ∧ least ≤ n ∧ n ≤ greatest then
    some (n, cs.drop count)
  else none

/-- The text behind a mark. -/
def mark (c : Char) : List Char → Option (List Char)
  | [] => none
  | d :: rest => if c = d then some rest else none

/-- The text behind a date. -/
def date (cs : List Char) : Option (List Char) := do
  let (year, cs) ← field 4 0 9999 cs
  let cs ← mark '-' cs
  let (month, cs) ← field 2 1 12 cs
  let cs ← mark '-' cs
  let (_, cs) ← field 2 1 (CalendarDay.daysInMonth year month) cs
  return cs

/-- The text behind a time of day. -/
def timeOfDay (cs : List Char) : Option (List Char) := do
  let (_, cs) ← field 2 0 23 cs
  let cs ← mark ':' cs
  let (_, cs) ← field 2 0 59 cs
  let cs ← mark ':' cs
  let (_, cs) ← field 2 0 60 cs
  match cs with
  | '.' :: rest =>
    if (rest.takeWhile Char.isDigit).isEmpty then none else some (rest.dropWhile Char.isDigit)
  | cs => some cs

/-- The text behind an offset, if there is one. -/
def offset (cs : List Char) : List Char :=
  match cs with
  | [] => []
  | c :: rest =>
    if c = 'Z' ∨ c = 'z' then rest
    else if c = '+' ∨ c = '-' then
      let behind : Option (List Char) := do
        let (_, rest) ← field 2 0 23 rest
        let rest ← mark ':' rest
        let (_, rest) ← field 2 0 59 rest
        return rest
      behind.getD cs
    else cs

/-- The text behind a date, a time of day or both. -/
def behindTime (cs : List Char) : Option (List Char) :=
  match date cs with
  | none => timeOfDay cs
  | some rest =>
    match rest with
    | [] => some []
    | c :: more =>
      if c = 'T' ∨ c = 't' ∨ c = ' ' then
        match timeOfDay more with
        | some rest => some (offset rest)
        | none => some rest
      else some rest

/-- A date, a time of day or both. -/
def time : Scan Item := fun cs => do
  let rest ← behindTime cs
  return (.time (.ofList (cs.take (cs.length - rest.length))), rest)

/-- The text behind a word. -/
def behindWord (word : List Char) (cs : List Char) : Option (List Char) :=
  if word.isPrefixOf cs then some (cs.drop word.length) else none

/-- A scalar that is no string. -/
def plainScalar : Scan Item := fun cs =>
  match cs with
  | [] => none
  | c :: _ =>
    if c = 't' then (behindWord "true".toList cs).map fun rest => (.boolean true, rest)
    else if c = 'f' then (behindWord "false".toList cs).map fun rest => (.boolean false, rest)
    else time cs <|> float cs <|> integer cs

end FeatureFlags.Toml
