import FeatureFlags.Flag.Snapshot

/-!
# Configuration updates

What a source delivers: the text of a full document or a delta, with the source's tag of the version
and where it came from. The text is not looked into before it reaches the store.
-/

namespace FeatureFlags

/-- The text of an update. -/
inductive PayloadContent where
  /-- A document that replaces the whole set. -/
  | full (text : String)
  /-- A document of changes to the set. -/
  | delta (text : String)
  deriving DecidableEq

namespace PayloadContent

def text : PayloadContent → String
  | full text => text
  | delta text => text

def isDelta : PayloadContent → Bool
  | full _ => false
  | delta _ => true

/-- The set that an update makes of the current one. -/
def apply (content : PayloadContent) (current : Option FlagSet) : Except DocumentError FlagSet :=
  match content with
  | full text => FlagSet.parse text
  | delta text => (FlagDelta.parse text).map fun delta => delta.applyTo (current.getD .empty)

end PayloadContent

/-- One update. -/
structure SyncPayload where
  content : PayloadContent
  version : Option String := none
  metadata : SyncMetadata := ∅
  deriving DecidableEq

/-- A failure of the source. -/
structure SyncFailure where
  message : String
  /-- Whether no further attempt will be made. -/
  fatal : Bool
  deriving DecidableEq

/-- What the source has to tell the holder of the configuration. -/
inductive StorageEvent where
  /-- The first update. -/
  | ready (payload : SyncPayload)
  /-- A later update. -/
  | changed (payload : SyncPayload)
  /-- The source is connected, but its data may be out of date. -/
  | stale (reason : String)
  | error (failure : SyncFailure)
  deriving DecidableEq

namespace StorageEvent

/-- The name of the kind of an event. -/
def name : StorageEvent → String
  | ready _ => "ready"
  | changed _ => "changed"
  | stale _ => "stale"
  | error _ => "error"

/-- The update that an event carries. -/
def payload? : StorageEvent → Option SyncPayload
  | ready payload => some payload
  | changed payload => some payload
  | _ => none

end StorageEvent

end FeatureFlags
