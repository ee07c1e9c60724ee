import FeatureFlags.Config.Toml.Scalar

/-!
# Reading TOML documents

A document consists of lines, each with a header, a key with its value, or nothing; `Table.ofText?`
reads it as a table. Arrays and tables in braces may be nested up to a fixed depth.
-/

namespace FeatureFlags.Toml

/-- The text behind blanks, line ends and comments, up to a number of lines. -/
def skipFiller : Nat → List Char → List Char
  | 0, cs => cs
  | fuel + 1, cs =>
    let cs := skipComment (skipBlanks cs)
    match newline? cs with
    | some rest => skipFiller fuel rest
    | none => cs

mutual

/-- A value. Each value, item and pair takes a unit of fuel; `room` is the number of arrays and
tables that may still be opened. -/
def value : Nat → Nat → Scan Item
  | 0, _, _ => none
  | fuel + 1, room, cs =>
    match cs with
    | [] => none
    | c :: rest =>
      if c = '"' ∨ c = '\'' then (string cs).map fun (s, rest) => (.string s, rest)
      else if c = '[' then
        match room with
        | 0 => none
        | room + 1 => (items fuel room rest).map fun (xs, rest) => (.array xs, rest)
      else if c = '\x7b' then
        match room with
        | 0 => none
        | room + 1 =>
          match skipBlanks rest with
          | '\x7d' :: rest => some (.table .inline [], rest)
          | rest => (pairs fuel room [] rest).map fun (t, rest) => (.table .inline t, rest)
      else plainScalar cs
termination_by structural fuel => fuel

/-- The items of an array up to its end; a comma may stand behind the last one. -/
def items : Nat → Nat → Scan (List Item)
  | 0, _, _ => none
  | fuel + 1, room, cs =>
    match skipFiller cs.length cs with
    | ']' :: rest => some ([], rest)
    | cs => do
      let (x, rest) ← value fuel room cs
      match skipFiller rest.length rest with
      | ']' :: rest => return ([x], rest)
      | ',' :: rest => do
        let (xs, rest) ← items fuel room rest
        return (x :: xs, rest)
      | _ => none
termination_by structural fuel => fuel

/-- The pairs of a table in braces up to its end, added to those before. -/
def pairs : Nat → Nat → Table → Scan Table
  | 0, _, _, _ => none
  | fuel + 1, room, t, cs => do
    let (path, rest) ← key cs
    let rest ← mark '=' rest
    let (x, rest) ← value fuel room (skipBlanks rest)
    let t ← t.put x path
    match skipBlanks rest with
    | '\x7d' :: rest => return (t, rest)
    | ',' :: rest => pairs fuel room t rest
    | _ => none
termination_by structural fuel => fuel

end

/-- The text behind the end of a line, which may have a comment. -/
def endOfLine (cs : List Char) : Option (List Char) :=
  match skipComment (skipBlanks cs) with
  | [] => some []
  | cs => newline? cs

/-- A line of a document. -/
inductive Line where
  | blank
  /-- Opens a table. -/
  | header (parents : List String) (key : String)
  /-- Adds a table to those under a key. -/
  | element (parents : List String) (key : String)
  | pair (path : List String) (item : Item)

/-- A key in brackets: its parents and its last part, and the text behind the brackets. -/
def bracketed (brackets : Nat) (cs : List Char) : Option (List String × String × List Char) := do
  let (path, rest) ← key cs
  let last ← path.getLast?
  if (rest.take brackets).all (· == ']') ∧ brackets ≤ rest.length then
    return (path.dropLast, last, rest.drop brackets)
  else none

/-- A line, and the lines behind it. -/
def line : Scan Line := fun cs => do
  let (found, rest) ← match skipBlanks cs with
    | '[' :: '[' :: rest => do
      let (parents, last, rest) ← bracketed 2 rest
      some (Line.element parents last, rest)
    | '[' :: rest => do
      let (parents, last, rest) ← bracketed 1 rest
      some (Line.header parents last, rest)
    | [] => some (.blank, [])
    | c :: rest =>
      if c = '#' ∨ c = '\n' ∨ c = '\r' then some (.blank, c :: rest)
      else do
        let (path, rest) ← key (c :: rest)
        let rest ← mark '=' rest
        let (x, rest) ← value (2 * rest.length + 1) 79 (skipBlanks rest)
        some (.pair path x, rest)
  let rest ← endOfLine rest
  return (found, rest)

/-- The lines of a document. -/
def lines : Nat → List Char → Option (List Line)
  | 0, _ => some []
  | _, [] => some []
  | fuel + 1, cs => do
    let (found, rest) ← line cs
    let more ← lines fuel rest
    return found :: more

/-- A document under construction, and the path of the table that was opened last. -/
structure Draft where
  root : Table := []
  path : List String := []

namespace Draft

/-- Adds a line to a document. -/
def add (d : Draft) : Line → Option Draft
  | .blank => some d
  | .header parents key => do
    let root ← d.root.descend (Table.openTable key) parents
    return ⟨root, parents ++ [key]⟩
  | .element parents key => do
    let root ← d.root.descend (Table.openElement key) parents
    return ⟨root, parents ++ [key]⟩
  | .pair path item => do
    let root ← d.root.descend (Table.put item path) d.path
    return { d with root }

end Draft

/-- Reads a document. -/
def Table.ofText? (text : String) : Option Table := do
  let cs := text.toList
  let cs := if cs.head? = some '\ufeff' then cs.drop 1 else cs
  let ls ← lines (cs.length + 1) cs
  let d ← ls.foldlM Draft.add {}
  return d.root

end FeatureFlags.Toml
