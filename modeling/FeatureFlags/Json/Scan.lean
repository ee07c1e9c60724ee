import FeatureFlags.Json.Draft

/-!
# Scanning a text

`Document.ofText` turns any text into a draft. The scan goes on as long as a reader that skips
values could; behind a fault that stops every reader the rest of the text is of no interest.
-/

namespace FeatureFlags.Json

/-- The characters that may stand between tokens. -/
def isBlank (c : Char) : Bool := c == ' ' || c == '\t' || c == '\n' || c == '\r'

/-- The text from the first character that is no blank. -/
def skipBlanks (cs : List Char) : List Char := cs.dropWhile isBlank

/-- What a text in quotes consists of: characters, and units of 16 bits that were written in
hexadecimal. -/
inductive Piece where
  | char (c : Char)
  | unit (n : Nat)

namespace Piece

/-- The first half of a surrogate pair. -/
def isLead (n : Nat) : Bool := 0xD800 ≤ n && n < 0xDC00

/-- The second half of a surrogate pair. -/
def isTrail (n : Nat) : Bool := 0xDC00 ≤ n && n < 0xE000

/-- The character of a surrogate pair. -/
def ofPair (lead trail : Nat) : Char :=
  Char.ofNat (0x10000 + (lead - 0xD800) * 0x400 + (trail - 0xDC00))

/-- The characters of a text in quotes that ended as given. Halves of a surrogate pair stand for a
character only together. -/
def join (close : Option Fault) : List Piece → Except Fault (List Char)
  | [] => match close with
    | none => .ok []
    | some fault => .error fault
  | char c :: rest => (join close rest).map (c :: ·)
  | unit n :: rest =>
    if isTrail n then .error .malformed
    else if isLead n then
      match rest with
      | [] => .error (close.getD .malformed)
      | char _ :: _ => .error .malformed
      | unit m :: rest =>
        if isTrail m then (join close rest).map (ofPair n m :: ·) else .error .malformed
    else (join close rest).map (Char.ofNat n :: ·)

end Piece

/-- The value of four hexadecimal digits. -/
def hexUnit? (a b c d : Char) : Option Nat := do
  let a ← Text.hexValue? a
  let b ← Text.hexValue? b
  let c ← Text.hexValue? c
  let d ← Text.hexValue? d
  return ((a * 16 + b) * 16 + c) * 16 + d

/-- The character that a letter names after a backslash. -/
def escaped? (c : Char) : Option Char :=
  if c = '"' ∨ c = '\\' ∨ c = '/' then some c
  else if c = 'n' then some '\n'
  else if c = 'r' then some '\r'
  else if c = 't' then some '\t'
  else if c = 'b' then some '\x08'
  else if c = 'f' then some '\x0c'
  else none

/-- What is wrong with an escape in hexadecimal when fewer than four characters follow: the text
ends too early only if it has fewer than four bytes left. -/
def shortUnit (rest : List Char) : Fault :=
  if (String.ofList rest).utf8ByteSize < 4 then .truncated else .malformed

/-- The pieces of a text behind its opening quote, and the rest behind the closing one. -/
def scanPieces : List Char → List Piece × Except Fault (List Char)
  | [] => ([], .error .truncated)
  | c :: rest =>
    let continued (piece : Piece) (more : List Piece × Except Fault (List Char)) :=
      (piece :: more.1, more.2)
    if c = '"' then ([], .ok rest)
    else if c = '\\' then
      match rest with
      | [] => ([], .error .truncated)
      | e :: rest =>
        if e = 'u' then
          match rest with
          | h₁ :: h₂ :: h₃ :: h₄ :: rest =>
            match hexUnit? h₁ h₂ h₃ h₄ with
            | some n => continued (.unit n) (scanPieces rest)
            | none => ([], .error .malformed)
          | short => ([], .error (shortUnit short))
        else
          match escaped? e with
          | some x => continued (.char x) (scanPieces rest)
          | none => ([], .error .malformed)
    else if c.toNat < 32 then ([], .error .malformed)
    else continued (.char c) (scanPieces rest)

/-- A text behind its opening quote. -/
def scanString (cs : List Char) : Literal String × List Char :=
  match scanPieces cs with
  | (pieces, .ok rest) => (⟨(Piece.join none pieces).map String.ofList, none⟩, rest)
  | (pieces, .error fault) =>
    (⟨(Piece.join (some fault) pieces).map String.ofList, some fault⟩, [])

/-- The digits at the start of a text, and the rest. -/
def scanDigits (cs : List Char) : List Char × List Char := cs.span (·.isDigit)

/-- A numeral that lacks a digit at the given place. Where the value is skipped, the end of the
text is not told apart from a wrong character. -/
def lacksDigit : List Char → Literal Number
  | [] => ⟨.error .truncated, some .malformed⟩
  | _ => .faulty .malformed

/-- A numeral with the digits before the point, from where its exponent may stand. -/
def scanExponent (negative : Bool) (whole : List Char) (fraction : Option (List Char))
    (cs : List Char) : Literal Number × List Char :=
  let number (exponent : Option (Bool × List Char)) : Literal Number :=
    match (Numeral.mk negative whole fraction exponent).toNumber? with
    | some n => .ok n
    | none => ⟨.error .malformed, none⟩
  match cs with
  | [] => (number none, [])
  | c :: rest =>
    if c = 'e' ∨ c = 'E' then
      let (sign, rest) := match rest with
        | '-' :: rest => (true, rest)
        | '+' :: rest => (false, rest)
        | rest => (false, rest)
      match scanDigits rest with
      | ([], rest) => (lacksDigit rest, [])
      | (digits, rest) => (number (some (sign, digits)), rest)
    else (number none, c :: rest)

/-- A numeral behind its sign. -/
def scanNumeral (negative : Bool) (cs : List Char) : Literal Number × List Char :=
  match scanDigits cs with
  | ([], rest) => (lacksDigit rest, [])
  | (whole, rest) =>
    if whole.length ≠ 1 ∧ whole.head? = some '0' then (.faulty .malformed, [])
    else
      match rest with
      | '.' :: rest =>
        match scanDigits rest with
        | ([], rest) => (lacksDigit rest, [])
        | (fraction, rest) => scanExponent negative whole (some fraction) rest
      | rest => scanExponent negative whole none rest

/-- The rest of a text behind a word. -/
def behindWord : List Char → List Char → Except Fault (List Char)
  | [], cs => .ok cs
  | _ :: _, [] => .error .truncated
  | w :: word, c :: cs => if w = c then behindWord word cs else .error .malformed

/-- A word behind its first letter, and the value that it stands for. -/
def scanWord (word : String) (value : Draft) (null : Bool) (cs : List Char) :
    Draft × List Char :=
  match behindWord word.toList cs with
  | .ok rest => (value, rest)
  | .error fault => (.misspelt fault null, [])

/-- A value other than an array or object, by its first character. -/
def scanScalar (c : Char) (rest : List Char) : Draft × List Char :=
  if c = '"' then
    let (literal, rest) := scanString rest
    (.string literal, rest)
  else if c = '-' then
    let (literal, rest) := scanNumeral true rest
    (.number literal, rest)
  else if c.isDigit then
    let (literal, rest) := scanNumeral false (c :: rest)
    (.number literal, rest)
  else if c = 'n' then scanWord "ull" .null true rest
  else if c = 't' then scanWord "rue" (.bool true) false rest
  else if c = 'f' then scanWord "alse" (.bool false) false rest
  else (.junk, [])

mutual

/-- A value, and the rest of the text behind it. Each value, item and member takes one unit of
fuel; as an item and its value begin at the same character, a text needs at most two units for
each of its characters. -/
def scanValue : Nat → List Char → Draft × List Char
  | 0, _ => (.missing, [])
  | fuel + 1, cs =>
    match skipBlanks cs with
    | [] => (.missing, [])
    | c :: rest =>
      if c = '[' then
        match skipBlanks rest with
        | [] => (.array [] (some .truncated), [])
        | d :: behind =>
          if d = ']' then (.array [] none, behind)
          else
            let (items, close, rest) := scanItems fuel (d :: behind)
            (.array items close, rest)
      else if c = '\x7b' then
        match skipBlanks rest with
        | [] => (.object [] (some .truncated), [])
        | d :: behind =>
          if d = '\x7d' then (.object [] none, behind)
          else
            let (members, close, rest) := scanMembers fuel (d :: behind)
            (.object members close, rest)
      else scanScalar c rest
termination_by structural fuel => fuel

/-- The items of an array from one of them on. -/
def scanItems : Nat → List Char → List Draft × Option Fault × List Char
  | 0, _ => ([], none, [])
  | fuel + 1, cs =>
    let (x, rest) := scanValue fuel cs
    match skipBlanks rest with
    | [] => ([x], some .truncated, [])
    | c :: rest =>
      if c = ']' then ([x], none, rest)
      else if c = ',' then
        let (xs, close, rest) := scanItems fuel rest
        (x :: xs, close, rest)
      else ([x], some .malformed, [])
termination_by structural fuel => fuel

/-- The members of an object from one of them on. -/
def scanMembers : Nat → List Char → List (Draft × Draft) × Option Fault × List Char
  | 0, _ => ([], none, [])
  | fuel + 1, cs =>
    match skipBlanks cs with
    | [] => ([(.missing, .missing)], some .truncated, [])
    | q :: rest =>
      if q = '"' then
        let (name, rest) := scanString rest
        match skipBlanks rest with
        | [] => ([(.string name, .missing)], some .truncated, [])
        | c :: rest =>
          if c = ':' then
            let (x, rest) := scanValue fuel rest
            match skipBlanks rest with
            | [] => ([(.string name, x)], some .truncated, [])
            | c :: rest =>
              if c = '\x7d' then ([(.string name, x)], none, rest)
              else if c = ',' then
                let (xs, close, rest) := scanMembers fuel rest
                ((.string name, x) :: xs, close, rest)
              else ([(.string name, x)], some .malformed, [])
          else ([(.string name, .junk)], some .malformed, [])
      else ([((scanValue fuel (q :: rest)).1, .missing)], some .malformed, [])
termination_by structural fuel => fuel

end

/-- A text as a document: its value, and whether anything but blanks follows it. -/
structure Document where
  root : Draft
  trailing : Bool

/-- Any text as a document. -/
def Document.ofText (text : String) : Document :=
  let cs := text.toList
  let (root, rest) := scanValue (2 * cs.length + 1) cs
  ⟨root, !(skipBlanks rest).isEmpty⟩

end FeatureFlags.Json
