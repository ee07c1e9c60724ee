import FeatureFlags.Json.Scan

/-!
# Reading values out of documents

A `Reader` takes a value out of a draft or says why it cannot. The same readers serve a text and a
tree that has been read before; the `Origin` says which of the two it is. They differ where a text
cannot be looked at as a whole: in a text arrays and objects may only be nested to a fixed depth,
and what follows the expected content of an array or object is a fault of the text, while in a tree
it is a value of the wrong length or kind.

A record is read from an object with its fields as members, or from an array that holds the fields
in their order.
-/

namespace FeatureFlags.Json

/-- What a document holds in place of the value that was expected. -/
inductive Found where
  | null
  | bool (value : Bool)
  | number (value : Number)
  | string (value : String)
  | sequence
  | map

namespace Found

/-- The description of a found value. -/
def text : Found → String
  | null => "null"
  | bool true => "boolean `true`"
  | bool false => "boolean `false`"
  | number (.integer n h) => s!"integer `" ++ String.ofList (Number.integer n h).render ++ "`"
  | number (.double x) => s!"floating point `" ++ String.ofList (Number.double x).render ++ "`"
  | string s => "string " ++ Text.quoted s
  | sequence => "sequence"
  | map => "map"

end Found

/-- Why a well-formed document does not hold the wanted value. -/
inductive Mismatch where
  | type (found : Found) (expected : String)
  | value (found : Found) (expected : String)
  | length (length : Nat) (expected : String)
  | missingField (name : String)
  | duplicateField (name : String)
  | unknownField (name : String) (known : List String)
  | unknownVariant (name : String) (known : List String)
  | noVariant (union : String)
  | custom (message : String)

namespace Mismatch

/-- The names of which one was expected. -/
def oneOf : List String → String
  | [] => "there are no names"
  | [a] => "`" ++ a ++ "`"
  | [a, b] => "`" ++ a ++ "` or `" ++ b ++ "`"
  | names => "one of " ++ ", ".intercalate (names.map fun a => "`" ++ a ++ "`")

/-- The message of a mismatch. -/
def message : Mismatch → String
  | type found expected => "invalid type: " ++ found.text ++ ", expected " ++ expected
  | value found expected => "invalid value: " ++ found.text ++ ", expected " ++ expected
  | length n expected => "invalid length " ++ toString n ++ ", expected " ++ expected
  | missingField name => "missing field `" ++ name ++ "`"
  | duplicateField name => "duplicate field `" ++ name ++ "`"
  | unknownField name known => "unknown field `" ++ name ++ "`, expected " ++ oneOf known
  | unknownVariant name known => "unknown variant `" ++ name ++ "`, expected " ++ oneOf known
  | noVariant union => "data did not match any variant of untagged enum " ++ union
  | custom message => message

end Mismatch

/-- Why a value cannot be read. -/
inductive ReadError where
  | fault (fault : Fault)
  | data (mismatch : Mismatch)

/-- Where a draft comes from. -/
inductive Origin where
  /-- A text, with the number of arrays and objects that may still be opened. -/
  | text (room : Nat)
  /-- A tree that has been read before. -/
  | tree

namespace Origin

/-- The origin of what an array or object holds. -/
def enter : Origin → Except Fault Origin
  | text 0 => .error .malformed
  | text (room + 1) => .ok (text room)
  | tree => .ok tree

/-- The origin of the value of a text. -/
def whole : Origin := text 127

end Origin

/-- Takes a value out of a draft. -/
abbrev Reader (α : Type) := Origin → Draft → Except ReadError α

/-- A fault as a reason. -/
def faulty {α : Type} (outcome : Except Fault α) : Except ReadError α :=
  outcome.mapError ReadError.fault

namespace Draft

mutual

/-- The tree of a draft. -/
def json (origin : Origin) : Draft → Except Fault Json
  | .missing => .error .truncated
  | .junk => .error .malformed
  | .misspelt fault _ => .error fault
  | .null => .ok .null
  | .bool b => .ok (.bool b)
  | .number literal => literal.value.map .number
  | .string literal => literal.value.map .string
  | .array items close => do
    let origin ← origin.enter
    let items ← jsonItems origin items
    Fault.outcome close
    return .array items
  | .object members close => do
    let origin ← origin.enter
    let members ← jsonMembers origin members
    Fault.outcome close
    return .object (Entries.sort members)
termination_by structural x => x

/-- The trees of the items of an array. -/
def jsonItems (origin : Origin) : List Draft → Except Fault (List Json)
  | [] => .ok []
  | x :: xs => do
    let y ← json origin x
    let ys ← jsonItems origin xs
    return y :: ys
termination_by structural xs => xs

/-- The trees of the members of an object, with their names. -/
def jsonMembers (origin : Origin) : List (Draft × Draft) → Except Fault (List (String × Json))
  | [] => .ok []
  | (k, x) :: xs => do
    let name ← k.name
    let y ← json origin x
    let ys ← jsonMembers origin xs
    return (name, y) :: ys
termination_by structural xs => xs

end

/-- What stands in place of an expected value that is not there. -/
def found : Draft → Except Fault Found
  | .missing => .error .truncated
  | .junk => .error .malformed
  | .misspelt fault _ => .error fault
  | .null => .ok .null
  | .bool b => .ok (.bool b)
  | .number literal => literal.value.map .number
  | .string literal => literal.value.map .string
  | .array _ _ => .ok .sequence
  | .object _ _ => .ok .map

end Draft

namespace Reader

/-- Fails with what stands in place of the expected value. -/
def mismatch {α : Type} (expected : String) (x : Draft) : Except ReadError α := do
  let found ← faulty x.found
  throw (.data (.type found expected))

/-- Any value. -/
def json : Reader Json := fun origin x => faulty (x.json origin)

/-- A text; `expected` is what a message calls it. -/
def stringAs (expected : String) : Reader String := fun _ x =>
  match x with
  | .string literal => faulty literal.value
  | x => mismatch expected x

/-- A text. -/
def string : Reader String := stringAs "a string"

def bool : Reader Bool := fun _ x =>
  match x with
  | .bool b => .ok b
  | x => mismatch "a boolean" x

/-- The value `null`. -/
def unit : Reader Unit := fun _ x =>
  match x with
  | .null => .ok ()
  | x => mismatch "unit" x

/-- A natural number below a bound; `expected` is what a message calls the type. -/
def natural (bound : Nat) (expected : String) : Reader (Fin bound) := fun _ x =>
  match x with
  | .number literal => do
    match ← faulty literal.value with
    | .integer n h =>
      match Text.below? bound n with
      | some small => return small
      | none => throw (.data (.value (.number (.integer n h)) expected))
    | .double d => throw (.data (.type (.number (.double d)) expected))
  | x => mismatch expected x

def uint16 : Reader UInt16 := fun origin x =>
  (natural UInt16.size "u16" origin x).map UInt16.ofFin

def uint32 : Reader UInt32 := fun origin x =>
  (natural UInt32.size "u32" origin x).map UInt32.ofFin

/-- A natural number of 64 bits; `expected` is what a message calls the type. -/
def uint64As (expected : String) : Reader UInt64 := fun origin x =>
  (natural UInt64.size expected origin x).map UInt64.ofFin

def uint64 : Reader UInt64 := uint64As "u64"

/-- A value or `null`. -/
def optional {α : Type} (inner : Reader α) : Reader (Option α) := fun origin x =>
  match x with
  | .null => .ok none
  | .misspelt fault true => .error (.fault fault)
  | x => (inner origin x).map some

/-- The items of an array. -/
def list {α : Type} (item : Reader α) : Reader (List α) := fun origin x =>
  match x with
  | .array items close => do
    let origin ← faulty origin.enter
    let values ← items.mapM (item origin)
    faulty (Fault.outcome close)
    return values
  | x => mismatch "a sequence" x

/-- The members of an object, in their order. -/
def members {α : Type} (value : Reader α) : Reader (List (String × α)) := fun origin x =>
  match x with
  | .object entries close => do
    let origin ← faulty origin.enter
    let values ← entries.mapM fun (k, v) => do
      let name ← faulty k.name
      let v ← value origin v
      return (name, v)
    faulty (Fault.outcome close)
    return values
  | x => mismatch "a map" x

/-- The value among `variants` that a name stands for. -/
def lookup {α : Type} (variants : List (String × α)) (name : String) : Except ReadError α :=
  match variants.lookup name with
  | some value => .ok value
  | none => throw (.data (.unknownVariant name (variants.map (·.1))))

/-- One of several named values: its name, or an object whose one member has that name and the
value `null`. -/
def variant {α : Type} (variants : List (String × α)) : Reader α := fun origin x =>
  match origin with
  | .tree =>
    match x with
    | .string literal => do lookup variants (← faulty literal.value)
    | .object [(k, v)] _ => do
      let value ← lookup variants (← faulty k.name)
      unit origin v
      return value
    | .object _ _ => throw (.data (.value .map "map with a single key"))
    | x => mismatch "string or map" x
  | .text _ =>
    match x with
    | .string literal => do lookup variants (← faulty literal.value)
    | .object entries close => do
      let origin ← faulty origin.enter
      match entries with
      | [] => throw (.fault (close.getD .malformed))
      | (k, v) :: more =>
        let name ← stringAs "variant identifier" origin k
        let value ← lookup variants name
        unit origin v
        if !more.isEmpty then throw (.fault .malformed)
        faulty (Fault.outcome close)
        return value
    | .missing => throw (.fault .truncated)
    | _ => throw (.fault .malformed)

end Reader

/-- A field of a record under construction. -/
structure Field (σ : Type) where
  name : String
  /-- Whether the record cannot be read without it. -/
  required : Bool
  /-- Reads the value and puts it into the record. -/
  read : Reader (σ → σ)

namespace Field

/-- A field that has to be there. -/
def needed {σ α : Type} (name : String) (reader : Reader α) (put : α → σ → σ) : Field σ :=
  ⟨name, true, fun origin x => (reader origin x).map put⟩

/-- A field that keeps its initial value when it is not there. -/
def defaulted {σ α : Type} (name : String) (reader : Reader α) (put : α → σ → σ) : Field σ :=
  ⟨name, false, fun origin x => (reader origin x).map put⟩

end Field

/-- The form of a record in a document. -/
structure Record (σ : Type) where
  /-- The record's name in messages. -/
  name : String
  fields : List (Field σ)
  /-- Whether a member that is no field is refused. -/
  closed : Bool

namespace Record

/-- The number of fields, in words. -/
def width {σ : Type} (r : Record σ) : String :=
  let n := r.fields.length
  "struct " ++ r.name ++ " with " ++ toString n ++ (if n = 1 then " element" else " elements")

/-- The fields of a record in the items of an array, the first of them at index `i`, and the items
behind them. -/
def readItems {σ : Type} (r : Record σ) (origin : Origin) :
    Nat → List (Field σ) → List Draft → σ → Except ReadError (σ × List Draft)
  | _, [], rest, state => .ok (state, rest)
  | i, field :: fields, [], state =>
    if field.required then throw (.data (.length i r.width))
    else readItems r origin (i + 1) fields [] state
  | i, field :: fields, x :: rest, state => do
    let put ← field.read origin x
    readItems r origin (i + 1) fields rest (put state)

/-- The fields of a record in the members of an object, with the names of those seen so far. -/
def readMembers {σ : Type} (r : Record σ) (origin : Origin) :
    List (Draft × Draft) → List String → σ → Except ReadError (List String × σ)
  | [], seen, state => .ok (seen, state)
  | (k, x) :: rest, seen, state => do
    let name ← faulty k.name
    match r.fields.find? (·.name == name) with
    | some field =>
      if seen.contains name then throw (.data (.duplicateField name))
      let put ← field.read origin x
      readMembers r origin rest (name :: seen) (put state)
    | none =>
      if r.closed then throw (.data (.unknownField name (r.fields.map (·.name))))
      faulty x.skip
      readMembers r origin rest seen state

/-- Reads a record, with the given values where fields are not there. -/
def reader {σ : Type} (r : Record σ) (initial : σ) : Reader σ := fun origin x =>
  match x with
  | .array items close => do
    let inside ← faulty origin.enter
    let (state, rest) ← r.readItems inside 0 r.fields items initial
    match origin, rest with
    | .tree, _ :: _ => throw (.data (.length items.length "fewer elements in array"))
    | .text _, _ :: _ => throw (.fault .malformed)
    | _, [] =>
      faulty (Fault.outcome close)
      return state
  | .object entries close => do
    let inside ← faulty origin.enter
    let (seen, state) ← r.readMembers inside entries [] initial
    faulty (Fault.outcome close)
    match r.fields.find? fun field => field.required && !seen.contains field.name with
    | some field => throw (.data (.missingField field.name))
    | none => return state
  | x => Reader.mismatch ("struct " ++ r.name) x

end Record

namespace Reader

/-- Reads a whole text. -/
def ofText {α : Type} (reader : Reader α) (text : String) : Except ReadError α := do
  let document := Document.ofText text
  let value ← reader .whole document.root
  if document.trailing then throw (.fault .malformed)
  return value

/-- Reads a tree. -/
def ofTree {α : Type} (reader : Reader α) (tree : Json) : Except ReadError α :=
  reader .tree (.ofJson tree)

end Reader

/-- The tree of a text. -/
def parse (text : String) : Except ReadError Json := Reader.json.ofText text

end FeatureFlags.Json
