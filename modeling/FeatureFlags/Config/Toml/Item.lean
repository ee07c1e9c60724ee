import FeatureFlags.Dict

/-!
# TOML documents

An `Item` is what stands under a key of a TOML document. Tables are written in several ways, which
decide how they may be extended: a table that was opened by its own header or written in braces is
complete, one that only came about as the parent of another may still be opened, and one that came
about by a dotted key may be extended by dotted keys.
-/

namespace FeatureFlags.Toml

/-- How a table came about. -/
inductive TableKind where
  /-- By its own header. -/
  | headed
  /-- As the parent of a table with a header. -/
  | implied
  /-- By a dotted key. -/
  | dotted
  /-- In braces. -/
  | inline
  deriving DecidableEq

/-- What stands under a key. Numbers with a point and times keep their text. -/
inductive Item where
  | string (value : String)
  | integer (value : Int)
  | float (text : String)
  | boolean (value : Bool)
  | time (text : String)
  | array (items : List Item)
  | table (kind : TableKind) (entries : List (String × Item))
  /-- The tables of a repeated header. -/
  | tables (elements : List (List (String × Item)))

namespace Item

instance : Inhabited Item := ⟨.boolean false⟩

end Item

/-- The keys of a table. -/
abbrev Table := Entries Item

namespace Table

/-- Replaces the item under a key. -/
def replace (t : Table) (key : String) (item : Item) : Table :=
  t.map fun e => if e.1 = key then (key, item) else e

/-- Changes the last of several tables. -/
def changeLast (f : Table → Option Table) : List Table → Option (List Table)
  | [] => none
  | [t] => (f t).map ([·])
  | t :: rest => (changeLast f rest).map (t :: ·)

/-- Puts an item under a dotted key. -/
def put (item : Item) : List String → Table → Option Table
  | [], _ => none
  | [key], t =>
    match t.get? key with
    | none => some (t ++ [(key, item)])
    | some _ => none
  | key :: rest, t =>
    match t.get? key with
    | none => (put item rest []).map fun inner => t ++ [(key, .table .dotted inner)]
    | some (.table kind inner) =>
      if kind = .dotted ∨ (kind = .implied ∧ 1 < rest.length) then
        (put item rest inner).map fun inner => replace t key (.table kind inner)
      else none
    | some (.tables elements) =>
      if 1 < rest.length then
        (changeLast (put item rest) elements).map fun elements => replace t key (.tables elements)
      else none
    | some _ => none

/-- Changes what stands under a path of headers. Tables on the way come about by it; of several
tables under one header the last is meant. -/
def descend (f : Table → Option Table) : List String → Table → Option Table
  | [], t => f t
  | key :: rest, t =>
    match t.get? key with
    | none => (descend f rest []).map fun inner => t ++ [(key, .table .implied inner)]
    | some (.table .inline _) => none
    | some (.table kind inner) =>
      (descend f rest inner).map fun inner => replace t key (.table kind inner)
    | some (.tables elements) =>
      (changeLast (descend f rest) elements).map fun elements => replace t key (.tables elements)
    | some _ => none

/-- Opens the table under a key. -/
def openTable (key : String) (t : Table) : Option Table :=
  match t.get? key with
  | none => some (t ++ [(key, .table .headed [])])
  | some (.table .implied inner) => some (replace t key (.table .headed inner))
  | some _ => none

/-- Adds an empty table to those under a key. -/
def openElement (key : String) (t : Table) : Option Table :=
  match t.get? key with
  | none => some (t ++ [(key, .tables [[]])])
  | some (.tables elements) => some (replace t key (.tables (elements ++ [[]])))
  | some _ => none

end Table

end FeatureFlags.Toml
