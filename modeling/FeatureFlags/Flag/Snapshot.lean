import FeatureFlags.Flag.Document

/-!
# Snapshots

A snapshot is the set of flags at one point in time, with the number of its generation and what is
known of its source.

`changedKeys` lists the flags that may resolve differently in a later set: those that were added,
removed or redefined. As the metadata of the set is part of every resolution, a change of it
concerns every flag.
-/

namespace FeatureFlags

/-- Where a configuration came from, by name. -/
abbrev SyncMetadata := Dict String

/-- A set of flags as it was published. -/
structure Snapshot where
  set : FlagSet
  /-- The source's own tag of the version. -/
  version : Option String
  generation : Nat
  syncMetadata : SyncMetadata

namespace Snapshot

instance : Inhabited Snapshot := ⟨default, none, 0, ∅⟩

/-- The definition of a flag. -/
def get? (snapshot : Snapshot) (key : String) : Option FlagDefinition := snapshot.set.flags.get? key

end Snapshot

namespace FlagSet

/-- Whether a flag of a new set differs from the one that an old set has under its key. -/
def redefined (old : FlagSet) (key : String) (flag : FlagDefinition) : Bool :=
  match old.flags.get? key with
  | some previous => !previous.same flag
  | none => true

/-- The keys of the flags that were added, removed or redefined, in their order. -/
def changedKeys (old : Option FlagSet) (new : FlagSet) : List String :=
  match old with
  | none => new.flags.keys
  | some old =>
    let metadataChanged := !old.metadata.same new.metadata
    let put := new.flags.entries.filter fun (key, flag) =>
      metadataChanged || old.redefined key flag
    let gone := old.flags.entries.filter fun (key, _) => !new.flags.contains key
    (Dict.ofEntries (put ++ gone)).keys

end FlagSet

end FeatureFlags
