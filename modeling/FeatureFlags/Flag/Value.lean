import FeatureFlags.Json.Named

/-!
# Flag values

A variant of a flag holds a boolean, a text, an integer, a double or a structure. Metadata holds
the same without structures. A number of a document that fits into 64 signed bits is an integer and
every other one a double.

A caller asks for a value of one kind; an integer is also served where a double is asked for, and
nothing else is converted.
-/

namespace FeatureFlags

/-- What a variant can hold. -/
inductive ValueKind where
  | boolean
  | string
  | integer
  | double
  | struct
  deriving DecidableEq

namespace ValueKind

instance : Named ValueKind where
  all := [boolean, string, integer, double, struct]
  name
    | boolean => "boolean"
    | string => "string"
    | integer => "integer"
    | double => "double"
    | struct => "structure"

/-- The type that a caller who asks for the kind gets. -/
def Carrier : ValueKind → Type
  | boolean => Bool
  | string => String
  | integer => Int64
  | double => Double
  | struct => Entries Json

end ValueKind

/-- The value of a variant. -/
inductive FlagValue where
  | bool (value : Bool)
  | string (value : String)
  | integer (value : Int64)
  | double (value : Double)
  | struct (value : Entries Json)

namespace FlagValue

instance : Inhabited FlagValue := ⟨.bool false⟩

def kind : FlagValue → ValueKind
  | bool _ => .boolean
  | string _ => .string
  | integer _ => .integer
  | double _ => .double
  | struct _ => .struct

/-- Whether a caller who asks for a kind can be served the value. -/
def satisfies (value : FlagValue) (requested : ValueKind) : Bool :=
  value.kind == requested || (value.kind == .integer && requested == .double)

/-- The double nearest to an integer of 64 bits. -/
def widen (n : Int64) : Double :=
  ⟨Binary64.ofInt n.toInt, Binary64.isFinite_ofInt (by
    have := n.le_toInt
    have := n.toInt_lt
    omega)⟩

/-- The value as the given kind. -/
def as? (kind : ValueKind) (value : FlagValue) : Option kind.Carrier :=
  match kind, value with
  | .boolean, bool b => some b
  | .string, string s => some s
  | .integer, integer n => some n
  | .double, double x => some x
  | .double, integer n => some (widen n)
  | .struct, struct members => some members
  | _, _ => none

/-- The value of a given kind. -/
def ofCarrier : (kind : ValueKind) → kind.Carrier → FlagValue
  | .boolean, b => bool b
  | .string, s => string s
  | .integer, n => integer n
  | .double, x => double x
  | .struct, members => struct members

/-- The value of a number: an integer if it fits. -/
def ofNumber (n : Json.Number) : FlagValue :=
  match n.toInt64? with
  | some i => integer i
  | none => double n.toDouble

/-- The value that a tree stands for. Arrays and `null` stand for none. -/
def ofJson? : Json → Option FlagValue
  | .bool b => some (bool b)
  | .string s => some (string s)
  | .number n => some (ofNumber n)
  | .object members => some (struct members)
  | .array _ => none
  | .null => none

/-- The value as a tree. -/
def toJson : FlagValue → Json
  | bool b => .bool b
  | string s => .string s
  | integer n => .ofInt64 n
  | double x => .number (.double x)
  | struct members => .object members

/-- Equality of values in which both zeros are equal. -/
def same (x y : FlagValue) : Bool :=
  match x, y with
  | bool a, bool b => a == b
  | string a, string b => a == b
  | integer a, integer b => a == b
  | double a, double b => a.same b
  | struct a, struct b => Json.sameMembers a b
  | _, _ => false

end FlagValue

/-- A scalar that is attached to a flag or a set of flags. -/
inductive MetadataValue where
  | bool (value : Bool)
  | string (value : String)
  | integer (value : Int64)
  | double (value : Double)
  deriving DecidableEq

namespace MetadataValue

/-- The value of a number: an integer if it fits. -/
def ofNumber (n : Json.Number) : MetadataValue :=
  match n.toInt64? with
  | some i => integer i
  | none => double n.toDouble

/-- The scalar that a tree stands for. Arrays, objects and `null` stand for none. -/
def ofJson? : Json → Option MetadataValue
  | .bool b => some (bool b)
  | .string s => some (string s)
  | .number n => some (ofNumber n)
  | _ => none

/-- The scalar as a value of a flag. -/
def toFlagValue : MetadataValue → FlagValue
  | bool b => .bool b
  | string s => .string s
  | integer n => .integer n
  | double x => .double x

/-- The scalar as a tree. -/
def toJson (value : MetadataValue) : Json := value.toFlagValue.toJson

/-- Equality of scalars in which both zeros are equal. -/
def same (x y : MetadataValue) : Bool := x.toFlagValue.same y.toFlagValue

end MetadataValue

/-- Metadata by name. -/
abbrev Metadata := Dict MetadataValue

namespace Metadata

/-- The metadata as a tree. -/
def toJson (metadata : Metadata) : Json := .object (metadata.entries.mapValues MetadataValue.toJson)

/-- Equality of metadata in which both zeros are equal. -/
def same (x y : Metadata) : Bool := Dict.same MetadataValue.same x y

end Metadata

/-!
## Reading by trial

A value without a tag is read by trying the kinds in their order and taking the first that accepts
the tree. An integer is accepted where its type has room for it, and a double accepts any number.
-/

namespace Untagged

/-- The first accepted reading. -/
def firstAccepted {α : Type} (readings : List (Json → Option α)) (tree : Json) : Option α :=
  readings.findSome? (· tree)

def bool? : Json → Option Bool
  | .bool b => some b
  | _ => none

def int64? : Json → Option Int64
  | .number n => n.toInt64?
  | _ => none

def double? : Json → Option Double
  | .number n => some n.toDouble
  | _ => none

/-- A tree as one of the kinds of flag values. -/
def flagValue? : Json → Option FlagValue :=
  firstAccepted [
    fun x => (bool? x).map .bool,
    fun x => x.toString?.map .string,
    fun x => (int64? x).map .integer,
    fun x => (double? x).map .double,
    fun x => x.toMembers?.map .struct]

/-- A tree as one of the kinds of scalars. -/
def metadataValue? : Json → Option MetadataValue :=
  firstAccepted [
    fun x => (bool? x).map .bool,
    fun x => x.toString?.map .string,
    fun x => (int64? x).map .integer,
    fun x => (double? x).map .double]

/-- Reads a tree and tries its kinds; `union` is what a message calls the type. -/
def reader {α : Type} (union : String) (read? : Json → Option α) : Json.Reader α :=
  fun origin x => do
    let tree ← Json.Reader.json origin x
    match read? tree with
    | some value => return value
    | none => throw (.data (.noVariant union))

end Untagged

/-- Reads a flag value. -/
def FlagValue.reader : Json.Reader FlagValue := Untagged.reader "FlagValue" Untagged.flagValue?

/-- Reads a scalar. -/
def MetadataValue.reader : Json.Reader MetadataValue :=
  Untagged.reader "MetadataValue" Untagged.metadataValue?

/-- Reads metadata, each value by trial. -/
def Metadata.reader : Json.Reader Metadata := fun origin x =>
  (Json.Reader.members MetadataValue.reader origin x).map Dict.ofEntries

end FeatureFlags
