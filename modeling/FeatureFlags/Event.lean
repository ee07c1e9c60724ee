import FeatureFlags.Flag.Snapshot
import FeatureFlags.Resolution
import FeatureFlags.Timestamp

/-!
# Provider events

What a provider tells its subscribers: that it is ready, that flags have changed, that its source is
unhealthy, or that something went wrong. An event is written as a document and read back as the same
event; members that hold nothing are left out.
-/

namespace FeatureFlags

/-- What an event is about. -/
inductive ProviderEventKind where
  | ready
  | configurationChanged
  | stale
  | error
  deriving DecidableEq

namespace ProviderEventKind

instance : Named ProviderEventKind where
  all := [ready, configurationChanged, stale, error]
  name
    | ready => "READY"
    | configurationChanged => "CONFIGURATION_CHANGED"
    | stale => "STALE"
    | error => "ERROR"

/-- The kind as subscribers know it. -/
def title (kind : ProviderEventKind) : String := "PROVIDER_" ++ Named.name kind

end ProviderEventKind

/-- The error of an event. -/
structure EventError where
  errorType : ErrorType
  message : String
  /-- Whether the provider will not recover on its own. -/
  fatal : Bool
  deriving DecidableEq

namespace EventError

instance : Inhabited EventError := ⟨.general, "", false⟩

/-- The form of an error in a document. -/
def record : Json.Record EventError where
  name := "EventError"
  fields := [
    .needed "error_type" Named.reader fun v e => { e with errorType := v },
    .needed "message" Json.Reader.string fun v e => { e with message := v },
    .needed "fatal" Json.Reader.bool fun v e => { e with fatal := v }]
  closed := false

def reader : Json.Reader EventError := record.reader default

/-- The error as a tree. -/
def toJson (error : EventError) : Json :=
  .object [("error_type", Named.toJson error.errorType), ("message", .string error.message),
    ("fatal", .bool error.fatal)]

end EventError

/-- Reads where a configuration came from. -/
def SyncMetadata.reader : Json.Reader SyncMetadata := fun origin x =>
  (Json.Reader.members Json.Reader.string origin x).map Dict.ofEntries

/-- Where a configuration came from, as a tree. -/
def SyncMetadata.toJson (metadata : SyncMetadata) : Json :=
  .object (metadata.entries.mapValues .string)

/-- Reads a timestamp. -/
def Timestamp.reader : Json.Reader Timestamp := fun origin x => do
  let s ← Json.Reader.stringAs "an RFC 3339 formatted date and time string" origin x
  match Timestamp.parse s with
  | .ok t => return t
  | .error error => throw (.data (.custom error.message))

/-- An event of a provider. -/
structure ProviderEvent where
  kind : ProviderEventKind
  /-- The keys of the flags that were added, removed or redefined, in their order. -/
  flagsChanged : List String := []
  syncMetadata : SyncMetadata := ∅
  error : Option EventError := none
  message : Option String := none
  /-- The number of the event, counted by its publisher. -/
  sequence : UInt64 := 0
  timestamp : Timestamp := .epoch
  deriving DecidableEq

namespace ProviderEvent

instance : Inhabited ProviderEvent := ⟨⟨.ready, [], ∅, none, none, 0, .epoch⟩⟩

def ready (flagsChanged : List String) (syncMetadata : SyncMetadata) : ProviderEvent :=
  { kind := .ready, flagsChanged, syncMetadata }

def configurationChanged (flagsChanged : List String) (syncMetadata : SyncMetadata) :
    ProviderEvent :=
  { kind := .configurationChanged, flagsChanged, syncMetadata }

def stale (message : String) : ProviderEvent := { kind := .stale, message := some message }

def ofError (errorType : ErrorType) (message : String) (fatal : Bool) : ProviderEvent :=
  { kind := .error, message := some message, error := some ⟨errorType, message, fatal⟩ }

/-- Whether the event tells of an error from which the provider will not recover. -/
def isFatal (event : ProviderEvent) : Bool := event.error.any (·.fatal)

/-- The form of an event in a document. -/
def record : Json.Record ProviderEvent where
  name := "ProviderEvent"
  fields := [
    .needed "kind" Named.reader fun v e => { e with kind := v },
    .defaulted "flags_changed" (Json.Reader.list Json.Reader.string)
      fun v e => { e with flagsChanged := v },
    .defaulted "sync_metadata" SyncMetadata.reader fun v e => { e with syncMetadata := v },
    .defaulted "error" (Json.Reader.optional EventError.reader) fun v e => { e with error := v },
    .defaulted "message" (Json.Reader.optional Json.Reader.string)
      fun v e => { e with message := v },
    .defaulted "sequence" Json.Reader.uint64 fun v e => { e with sequence := v },
    .needed "timestamp" Timestamp.reader fun v e => { e with timestamp := v }]
  closed := false

/-- Reads an event. -/
def reader : Json.Reader ProviderEvent := record.reader default

/-- The event as a tree. -/
def toJson (event : ProviderEvent) : Json :=
  let some? (name : String) (value : Option Json) : Entries Json :=
    (value.map fun x => (name, x)).toList
  .object <|
    [("kind", Named.toJson event.kind)] ++
    (if event.flagsChanged.isEmpty then []
      else [("flags_changed", .array (event.flagsChanged.map .string))]) ++
    [("sync_metadata", event.syncMetadata.toJson)] ++
    some? "error" (event.error.map EventError.toJson) ++
    some? "message" (event.message.map .string) ++
    [("sequence", .ofUInt64 event.sequence), ("timestamp", .string event.timestamp.text)]

end ProviderEvent

end FeatureFlags
