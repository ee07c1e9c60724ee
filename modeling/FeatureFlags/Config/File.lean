import FeatureFlags.Config.Layer
import FeatureFlags.Config.Toml.Document

/-!
# Settings from a TOML file

The settings stand at the top of the document under their names; other keys do not count. A setting
with a value of the wrong kind makes the document unusable.
-/

namespace FeatureFlags.Toml

namespace Item

def string? : Item → Option String
  | string s => some s
  | _ => none

def boolean? : Item → Option Bool
  | boolean b => some b
  | _ => none

/-- A natural number below a bound. -/
def natural? (bound : Nat) : Item → Option (Fin bound)
  | integer n => Text.below? bound n
  | _ => none

def uint16? (item : Item) : Option UInt16 :=
  (item.natural? UInt16.size).map UInt16.ofFin

def uint32? (item : Item) : Option UInt32 :=
  (item.natural? UInt32.size).map UInt32.ofFin

def uint64? (item : Item) : Option UInt64 :=
  (item.natural? UInt64.size).map UInt64.ofFin

/-- Whether an item holds nothing. -/
def isEmpty : Item → Bool
  | array items => items.isEmpty
  | table _ entries => entries.isEmpty
  | tables elements => elements.isEmpty
  | _ => false

/-- One of several named values: its name, or a table whose one key has that name and holds
nothing. -/
def named? {α : Type} [Named α] : Item → Option α
  | string s => Named.ofName? s
  | table _ [(name, item)] => if item.isEmpty then Named.ofName? name else none
  | _ => none

end Item

namespace Table

/-- The value of a setting, if it is there; fails if it is of the wrong kind. -/
def setting? {α : Type} (t : Table) (name : String) (read? : Item → Option α) :
    Option (Option α) :=
  match t.get? name with
  | none => some none
  | some item => (read? item).map some

/-- The settings of a document. -/
def layer? (t : Table) : Option ConfigLayer := do
  let host ← t.setting? "host" Item.string?
  let port ← t.setting? "port" Item.uint16?
  let tls ← t.setting? "tls" Item.boolean?
  let certPath ← t.setting? "cert_path" Item.string?
  let socketPath ← t.setting? "socket_path" Item.string?
  let cache ← t.setting? "cache" Item.named?
  let maxCacheSize ← t.setting? "max_cache_size" Item.uint64?
  let resolver ← t.setting? "resolver" Item.named?
  let selector ← t.setting? "selector" Item.string?
  let maxEventStreamRetries ← t.setting? "max_event_stream_retries" Item.uint32?
  let retryBackoffMs ← t.setting? "retry_backoff_ms" Item.uint64?
  let retryBackoffMaxMs ← t.setting? "retry_backoff_max_ms" Item.uint64?
  let deadlineMs ← t.setting? "deadline_ms" Item.uint64?
  let streamDeadlineMs ← t.setting? "stream_deadline_ms" Item.uint64?
  let offlineFlagSourcePath ← t.setting? "offline_flag_source_path" Item.string?
  let offlinePollIntervalMs ← t.setting? "offline_poll_interval_ms" Item.uint64?
  let syncMode ← t.setting? "sync_mode" Item.named?
  let pollIntervalMs ← t.setting? "poll_interval_ms" Item.uint64?
  let syncToken ← t.setting? "sync_token" Item.string?
  return {
    host, port, tls, certPath, socketPath, cache, maxCacheSize, resolver, selector,
    maxEventStreamRetries, retryBackoffMs, retryBackoffMaxMs, deadlineMs, streamDeadlineMs,
    offlineFlagSourcePath, offlinePollIntervalMs, syncMode, pollIntervalMs, syncToken }

end Table

end FeatureFlags.Toml
