import FeatureFlags.Flag.Value

/-!
# Flag definitions

A definition is checked when it is read: it has a key, a known state, at least one variant, only
variants with a value, and a default among them. The targeting tree is kept as it is, except that
`null` and the empty object count as none.

`toJson` writes a definition as a tree that is read back as the same definition.
-/

namespace FeatureFlags

/-- Whether a flag is served. -/
inductive FlagState where
  | enabled
  | disabled
  deriving DecidableEq

instance : Named FlagState where
  all := [.enabled, .disabled]
  name
    | .enabled => "ENABLED"
    | .disabled => "DISABLED"

/-- A checked flag. -/
structure FlagDefinition where
  key : String
  state : FlagState
  variants : Dict FlagValue
  defaultVariant : String
  /-- The rules that select a variant, not yet looked into. -/
  targeting : Option Json
  metadata : Metadata

/-- What is wrong with one flag. -/
inductive FlagFault where
  | unreadable (error : Json.ReadError)
  | unknownState (state : String)
  | noVariants
  | unsupportedVariant (name : String)
  | unknownDefault (name : String)
  | structuredMetadata (name : String)

/-- What is wrong with a text, where no more is said about a text that is no document. -/
def Json.ReadError.message : Json.ReadError → String
  | .data mismatch => mismatch.message
  | .fault .malformed => "unexpected character"
  | .fault .truncated => "unexpected end of input"

namespace FlagFault

/-- The reason in a message. -/
def message : FlagFault → String
  | unreadable error => error.message
  | unknownState state => s!"unknown state '" ++ state ++ "'"
  | noVariants => "variants must not be empty"
  | unsupportedVariant name => s!"variant '" ++ name ++ "' has an unsupported value"
  | unknownDefault name => s!"defaultVariant '" ++ name ++ "' is not a variant"
  | structuredMetadata name => s!"metadata '" ++ name ++ "' must be a scalar"

end FlagFault

/-- Why a configuration is refused. -/
inductive DocumentError where
  | emptyKey
  | missingFlags
  | structuredMetadata (name : String)
  | invalidFlag (key : String) (fault : FlagFault)
  | unreadable (error : Json.ReadError)

namespace DocumentError

/-- What is wrong with the document as a whole, if it is not one flag. -/
def reason? : DocumentError → Option String
  | emptyKey => some "flag key must not be empty"
  | missingFlags => some "missing 'flags' object"
  | structuredMetadata name => some (s!"flag set metadata '" ++ name ++ "' must be a scalar")
  | _ => none

/-- The message of an error. -/
def message : DocumentError → String
  | invalidFlag key fault => "Invalid flag " ++ key ++ ": " ++ fault.message
  | unreadable error => "Malformed JSON: " ++ error.message
  | error => "Invalid flag configuration: " ++ error.reason?.getD ""

end DocumentError

/-- The fields of a flag in a document, before they are checked. -/
structure FlagEntry where
  state : String := ""
  variants : Entries Json := []
  defaultVariant : String := ""
  targeting : Option Json := none
  metadata : Entries Json := []

namespace FlagEntry

/-- Reads an object of any members. -/
def membersReader : Json.Reader (Entries Json) := fun origin x =>
  (Json.Reader.members Json.Reader.json origin x).map Entries.sort

/-- The form of a flag in a document. -/
def record : Json.Record FlagEntry where
  name := "RawFlag"
  fields := [
    .needed "state" Json.Reader.string fun v e => { e with state := v },
    .needed "variants" membersReader fun v e => { e with variants := v },
    .needed "defaultVariant" Json.Reader.string fun v e => { e with defaultVariant := v },
    .defaulted "targeting" (Json.Reader.optional Json.Reader.json)
      fun v e => { e with targeting := v },
    .defaulted "metadata" membersReader fun v e => { e with metadata := v }]
  closed := false

end FlagEntry

/-- The scalars of an object, or the name of the first member that is none. -/
def Metadata.ofMembers (members : Entries Json) : Except String Metadata := do
  let entries ← members.mapM fun (name, x) =>
    match MetadataValue.ofJson? x with
    | some value => .ok (name, value)
    | none => .error name
  return .ofEntries entries

namespace FlagDefinition

def isEnabled (flag : FlagDefinition) : Bool := flag.state == .enabled

/-- The value of a variant. -/
def variant? (flag : FlagDefinition) (name : String) : Option FlagValue := flag.variants.get? name

/-- The value of the default variant. -/
def default? (flag : FlagDefinition) : Option FlagValue := flag.variant? flag.defaultVariant

/-- The targeting that counts as such. -/
def effectiveTargeting : Option Json → Option Json
  | none => none
  | some .null => none
  | some (.object []) => none
  | some tree => some tree

/-- The values of the variants, or the name of the first one without a value. -/
def variantsOf (members : Entries Json) : Except String (Dict FlagValue) := do
  let entries ← members.mapM fun (name, x) =>
    match FlagValue.ofJson? x with
    | some value => .ok (name, value)
    | none => .error name
  return .ofEntries entries

/-- Checks the fields of a flag. -/
def ofEntry (key : String) (entry : FlagEntry) : Except FlagFault FlagDefinition := do
  let some state := Named.ofName? entry.state | throw (.unknownState entry.state)
  if entry.variants.isEmpty then throw .noVariants
  let variants ← (variantsOf entry.variants).mapError .unsupportedVariant
  if !variants.contains entry.defaultVariant then throw (.unknownDefault entry.defaultVariant)
  let metadata ← (Metadata.ofMembers entry.metadata).mapError .structuredMetadata
  return {
    key, state, variants, metadata
    defaultVariant := entry.defaultVariant
    targeting := effectiveTargeting entry.targeting }

/-- The definition of the flag with the given key in a tree. -/
def ofJson (key : String) (tree : Json) : Except DocumentError FlagDefinition := do
  if key.isEmpty then throw .emptyKey
  let entry ← ((FlagEntry.record.reader {}).ofTree tree).mapError
    fun error => .invalidFlag key (.unreadable error)
  (ofEntry key entry).mapError (.invalidFlag key)

/-- The definition as a tree. -/
def toJson (flag : FlagDefinition) : Json :=
  .object <|
    [("key", .string flag.key), ("state", Named.toJson flag.state),
      ("variants", .object (flag.variants.entries.mapValues FlagValue.toJson)),
      ("defaultVariant", .string flag.defaultVariant)] ++
    (flag.targeting.map fun tree => ("targeting", tree)).toList ++
    [("metadata", flag.metadata.toJson)]

/-- Equality of definitions in which both zeros are equal. -/
def same (x y : FlagDefinition) : Bool :=
  x.key == y.key && x.state == y.state && Dict.same FlagValue.same x.variants y.variants &&
  x.defaultVariant == y.defaultVariant &&
  (match x.targeting, y.targeting with
    | none, none => true
    | some a, some b => a.same b
    | _, _ => false) &&
  x.metadata.same y.metadata

end FlagDefinition

end FeatureFlags
