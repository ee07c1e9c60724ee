import FeatureFlags.Flag.Definition

/-!
# Configuration documents

A full document replaces the whole set of flags; a delta lists flags to put and keys to remove. A
document is accepted as a whole or not at all. Its flags are checked in the order of their keys,
and the first bad one is reported.
-/

namespace FeatureFlags

/-- A set of flags by key, with the metadata that they share. -/
structure FlagSet where
  flags : Dict FlagDefinition
  metadata : Metadata

namespace FlagSet

/-- No flags and no metadata. -/
def empty : FlagSet := ⟨∅, ∅⟩

instance : Inhabited FlagSet := ⟨empty⟩

end FlagSet

/-- A partial update. -/
structure FlagDelta where
  upserts : Dict FlagDefinition
  removed : List String
  /-- The metadata that replaces the former, if there is any. -/
  metadata : Option Metadata

/-- The members of a document, before they are checked. -/
structure DocumentParts where
  flags : Option (Entries Json) := none
  metadata : Option (Entries Json) := none
  removed : List String := []

namespace DocumentParts

/-- The form of a document. -/
def record : Json.Record DocumentParts where
  name := "RawDocument"
  fields := [
    .defaulted "flags" (Json.Reader.optional FlagEntry.membersReader)
      fun v d => { d with flags := v },
    .defaulted "metadata" (Json.Reader.optional FlagEntry.membersReader)
      fun v d => { d with metadata := v },
    .defaulted "removed" (Json.Reader.list Json.Reader.string) fun v d => { d with removed := v }]
  closed := false

/-- The members of a text. -/
def ofText (text : String) : Except DocumentError DocumentParts :=
  ((record.reader {}).ofText text).mapError .unreadable

/-- The flags of an object, in the order of their keys. -/
def flagsOf (members : Entries Json) : Except DocumentError (Dict FlagDefinition) := do
  let entries ← members.mapM fun (key, tree) => do
    let flag ← FlagDefinition.ofJson key tree
    return (key, flag)
  return .ofEntries entries

/-- The metadata of a document. -/
def metadataOf (members : Entries Json) : Except DocumentError Metadata :=
  (Metadata.ofMembers members).mapError .structuredMetadata

end DocumentParts

/-- Reads a full document. -/
def FlagSet.parse (text : String) : Except DocumentError FlagSet := do
  let parts ← DocumentParts.ofText text
  let some flags := parts.flags | throw .missingFlags
  let flags ← DocumentParts.flagsOf flags
  let metadata ← match parts.metadata with
    | some members => DocumentParts.metadataOf members
    | none => pure ∅
  return ⟨flags, metadata⟩

namespace FlagDelta

/-- Reads a delta. -/
def parse (text : String) : Except DocumentError FlagDelta := do
  let parts ← DocumentParts.ofText text
  let upserts ← match parts.flags with
    | some flags => DocumentParts.flagsOf flags
    | none => pure ∅
  let metadata ← match parts.metadata with
    | some members => do
      let metadata ← DocumentParts.metadataOf members
      pure (some metadata)
    | none => pure none
  return ⟨upserts, parts.removed, metadata⟩

/-- The set that a delta makes of another: the removed keys go first, then the flags of the delta
are put. -/
def applyTo (delta : FlagDelta) (base : FlagSet) : FlagSet where
  flags := (delta.removed.foldl Dict.erase base.flags).overlay delta.upserts
  metadata := delta.metadata.getD base.metadata

end FlagDelta

end FeatureFlags
