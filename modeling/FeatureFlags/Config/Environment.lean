import FeatureFlags.Config.Layer
import FeatureFlags.Text.Digits

/-!
# Settings from the environment

A setting is taken from a variable of its own name. An empty variable counts as not set. A variable
that does not spell a value of its setting is an error, except that every text but `true` and `1`
switches encryption off.
-/

namespace FeatureFlags

/-- The variables of an environment. -/
abbrev Environment := String → Option String

namespace Environment

/-- The text of a variable that is not empty. -/
def text (env : Environment) (name : String) : Option String :=
  (env name).filter fun s => !s.isEmpty

/-- Whether a variable says yes. -/
def flag (env : Environment) (name : String) : Option Bool :=
  (env.text name).map fun s => s.map Char.toLower == "true" || s == "1"

/-- A natural number below a bound in decimal digits, with an optional sign. -/
def natural? (bound : Nat) (s : String) : Option (Fin bound) :=
  let digits := match s.toList with
    | '+' :: rest => rest
    | cs => cs
  if !digits.isEmpty && digits.all Char.isDigit then Text.below? bound (Text.decimalValue digits)
  else none

/-- A variable with the value that it spells; `what` is what a message calls the setting. -/
def parsed {α : Type} (env : Environment) (name what : String) (read? : String → Option α) :
    Except ConfigError (Option α) :=
  match env.text name with
  | none => .ok none
  | some s =>
    match read? s with
    | some value => .ok (some value)
    | none => .error (.invalidValue name ("invalid " ++ what ++ " value '" ++ s ++ "'"))

def uint16 (env : Environment) (name : String) : Except ConfigError (Option UInt16) :=
  env.parsed name "u16" fun s => (natural? UInt16.size s).map UInt16.ofFin

def uint32 (env : Environment) (name : String) : Except ConfigError (Option UInt32) :=
  env.parsed name "u32" fun s => (natural? UInt32.size s).map UInt32.ofFin

/-- A number of 64 bits; `what` is what a message calls it. -/
def uint64As (what : String) (env : Environment) (name : String) :
    Except ConfigError (Option UInt64) :=
  env.parsed name what fun s => (natural? UInt64.size s).map UInt64.ofFin

def uint64 (env : Environment) (name : String) : Except ConfigError (Option UInt64) :=
  uint64As "u64" env name

/-- A setting with several spellings. -/
def spelled {α : Type} [Spelled α] (env : Environment) (name : String) :
    Except ConfigError (Option α) :=
  env.parsed name (Spelled.what α) fun s => (Spelled.parse s).toOption

/-- The settings of an environment. The first bad variable in the order of the settings is
reported. -/
def layer (env : Environment) : Except ConfigError ConfigLayer := do
  let port ← env.uint16 "FLAGD_PORT"
  let cache ← env.spelled "FLAGD_CACHE"
  let maxCacheSize ← uint64As "usize" env "FLAGD_MAX_CACHE_SIZE"
  let resolver ← env.spelled "FLAGD_RESOLVER"
  let maxEventStreamRetries ← env.uint32 "FLAGD_MAX_EVENT_STREAM_RETRIES"
  let retryBackoffMs ← env.uint64 "FLAGD_RETRY_BACKOFF_MS"
  let retryBackoffMaxMs ← env.uint64 "FLAGD_RETRY_BACKOFF_MAX_MS"
  let deadlineMs ← env.uint64 "FLAGD_DEADLINE_MS"
  let streamDeadlineMs ← env.uint64 "FLAGD_STREAM_DEADLINE_MS"
  let offlinePollIntervalMs ← env.uint64 "FLAGD_OFFLINE_POLL_MS"
  let syncMode ← env.spelled "FLAGD_SYNC_MODE"
  let pollIntervalMs ← env.uint64 "FLAGD_POLL_INTERVAL_MS"
  return {
    port, cache, maxCacheSize, resolver, maxEventStreamRetries, retryBackoffMs, retryBackoffMaxMs,
    deadlineMs, streamDeadlineMs, offlinePollIntervalMs, syncMode, pollIntervalMs
    host := env.text "FLAGD_HOST"
    tls := env.flag "FLAGD_TLS"
    certPath := env.text "FLAGD_SERVER_CERT_PATH"
    socketPath := env.text "FLAGD_SOCKET_PATH"
    selector := env.text "FLAGD_SOURCE_SELECTOR"
    offlineFlagSourcePath := env.text "FLAGD_OFFLINE_FLAG_SOURCE_PATH"
    syncToken := env.text "FLAGD_SYNC_TOKEN" }

end Environment

end FeatureFlags
