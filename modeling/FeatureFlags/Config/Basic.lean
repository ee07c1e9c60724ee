import FeatureFlags.Backoff
import FeatureFlags.Files
import FeatureFlags.Json.Named

/-!
# Configuration of a resolver

A `ResolverConfig` says where flags come from and how they are served. `validate` refuses what
cannot be served; whether a certificate exists is asked of the files that are there.
-/

namespace FeatureFlags

/-- Whether resolutions are cached. -/
inductive CacheType where
  | lru
  | disabled
  deriving DecidableEq

/-- Where flags are evaluated. -/
inductive ResolverType where
  | inProcess
  | rpc
  deriving DecidableEq

/-- How the server is asked for updates. -/
inductive SyncMode where
  | stream
  | poll
  deriving DecidableEq

instance : Named CacheType where
  all := [.lru, .disabled]
  name
    | .lru => "lru"
    | .disabled => "disabled"

instance : Named ResolverType where
  all := [.inProcess, .rpc]
  name
    | .inProcess => "in-process"
    | .rpc => "rpc"

instance : Named SyncMode where
  all := [.stream, .poll]
  name
    | .stream => "stream"
    | .poll => "poll"

/-- A setting that people write in several ways, in any case of the ASCII letters. -/
class Spelled (α : Type) where
  /-- What the setting is called in messages. -/
  what : String
  /-- All spellings. -/
  spellings : List (String × α)

namespace Spelled

/-- The value that a text spells, or the text in lower case. -/
def parse {α : Type} [Spelled α] (text : String) : Except String α :=
  let lower := text.map Char.toLower
  match (spellings (α := α)).lookup lower with
  | some value => .ok value
  | none => .error lower

/-- What is wrong with a text that spells nothing. -/
def unknown (α : Type) [Spelled α] (lower : String) : String :=
  "unknown " ++ what α ++ " '" ++ lower ++ "'"

end Spelled

instance : Spelled CacheType where
  what := "cache type"
  spellings := [("lru", .lru), ("disabled", .disabled), ("none", .disabled)]

instance : Spelled ResolverType where
  what := "resolver type"
  spellings := [("in-process", .inProcess), ("in_process", .inProcess), ("inprocess", .inProcess),
    ("rpc", .rpc)]

instance : Spelled SyncMode where
  what := "sync mode"
  spellings := [("stream", .stream), ("poll", .poll)]

/-- Why a configuration cannot be used. -/
inductive ConfigError where
  | invalidValue (key message : String)
  | tomlParse (path : String)
  | fileRead (path : String)
  | validation (message : String)
  | unsupported (message : String)
  | tls (message : String)
  deriving DecidableEq

namespace ConfigError

def message : ConfigError → String
  | invalidValue key message => "Invalid value for " ++ key ++ ": " ++ message
  | tomlParse path => "Failed to parse TOML config at " ++ path
  | fileRead path => "Failed to read config file " ++ path
  | validation message => "Validation error: " ++ message
  | unsupported message => "Unsupported configuration: " ++ message
  | tls message => "TLS configuration error: " ++ message

end ConfigError

/-- The configuration of a resolver. -/
structure ResolverConfig where
  host : String := "localhost"
  port : UInt16 := 8015
  tls : Bool := false
  /-- A certificate that is trusted for connections. -/
  certPath : Option String := none
  socketPath : Option String := none
  cache : CacheType := .lru
  maxCacheSize : UInt64 := 1000
  resolver : ResolverType := .inProcess
  selector : Option String := none
  maxEventStreamRetries : UInt32 := 5
  retryBackoff : Duration := .ofMilliseconds 1000
  retryBackoffMax : Duration := .ofMilliseconds 120000
  /-- How long to wait for the first configuration. -/
  deadline : Duration := .ofMilliseconds 5000
  /-- How long a stream may be silent before its data counts as stale. -/
  streamDeadline : Duration := .ofMilliseconds 60000
  /-- A file from which flags are read instead of a server. -/
  offlineFlagSourcePath : Option String := none
  offlinePollInterval : Duration := .ofMilliseconds 5000
  syncMode : SyncMode := .stream
  pollInterval : Duration := .ofMilliseconds 30000
  syncToken : Option String := none
  deriving DecidableEq

namespace ResolverConfig

instance : Inhabited ResolverConfig := ⟨{}⟩

/-- The address of the server. -/
def baseUrl (config : ResolverConfig) : String :=
  (if config.tls then "https" else "http") ++ "://" ++ config.host ++ ":" ++
    toString config.port.toNat

/-- The capacity of the cache that the configuration asks for. -/
def cacheCapacity (config : ResolverConfig) : Nat :=
  match config.cache with
  | .lru => config.maxCacheSize.toNat
  | .disabled => 0

/-- How to reconnect. -/
def retryPolicy (config : ResolverConfig) : RetryPolicy :=
  { maxRetries := config.maxEventStreamRetries
    baseDelay := config.retryBackoff
    maxDelay := config.retryBackoffMax }

/-- The greatest size of a cache. -/
def cacheSizeLimit : Nat := 10000000

/-- Refuses what cannot be served. -/
def validate (config : ResolverConfig) (files : Files) : Except ConfigError Unit := do
  if config.resolver = .rpc then
    throw (.unsupported "the rpc resolver is not available; use in-process")
  if config.socketPath.isSome then
    throw (.unsupported "unix socket sync is not available over HTTP")
  if config.offlineFlagSourcePath.isNone ∧ config.port = 0 then
    throw (.invalidValue "port" "must be non-zero")
  if cacheSizeLimit < config.maxCacheSize.toNat then
    throw (.invalidValue "max_cache_size" ("must be at most " ++ toString cacheSizeLimit))
  if config.retryBackoffMax.nanoseconds < config.retryBackoff.nanoseconds then
    throw (.validation ("retry_backoff (" ++ config.retryBackoff.text ++
      ") exceeds retry_backoff_max (" ++ config.retryBackoffMax.text ++ ")"))
  if config.pollInterval.isZero ∨ config.offlinePollInterval.isZero then
    throw (.validation "poll intervals must be non-zero")
  match config.certPath with
  | none => return
  | some path =>
    if (files path).isNone then throw (.tls ("certificate " ++ path ++ " does not exist"))

end ResolverConfig

end FeatureFlags
