import FeatureFlags.Config.Basic

/-!
# Layers of configuration

A layer sets some of the settings. Layers are merged one over the other, and the settings that none
of them sets have their default values.
-/

namespace FeatureFlags

/-- Some settings of a configuration; durations are in milliseconds. -/
structure ConfigLayer where
  host : Option String := none
  port : Option UInt16 := none
  tls : Option Bool := none
  certPath : Option String := none
  socketPath : Option String := none
  cache : Option CacheType := none
  maxCacheSize : Option UInt64 := none
  resolver : Option ResolverType := none
  selector : Option String := none
  maxEventStreamRetries : Option UInt32 := none
  retryBackoffMs : Option UInt64 := none
  retryBackoffMaxMs : Option UInt64 := none
  deadlineMs : Option UInt64 := none
  streamDeadlineMs : Option UInt64 := none
  offlineFlagSourcePath : Option String := none
  offlinePollIntervalMs : Option UInt64 := none
  syncMode : Option SyncMode := none
  pollIntervalMs : Option UInt64 := none
  syncToken : Option String := none
  deriving DecidableEq

namespace ConfigLayer

instance : Inhabited ConfigLayer := ⟨{}⟩

/-- The settings of both layers, those of `other` where both set them. -/
def merge (layer other : ConfigLayer) : ConfigLayer where
  host := other.host <|> layer.host
  port := other.port <|> layer.port
  tls := other.tls <|> layer.tls
  certPath := other.certPath <|> layer.certPath
  socketPath := other.socketPath <|> layer.socketPath
  cache := other.cache <|> layer.cache
  maxCacheSize := other.maxCacheSize <|> layer.maxCacheSize
  resolver := other.resolver <|> layer.resolver
  selector := other.selector <|> layer.selector
  maxEventStreamRetries := other.maxEventStreamRetries <|> layer.maxEventStreamRetries
  retryBackoffMs := other.retryBackoffMs <|> layer.retryBackoffMs
  retryBackoffMaxMs := other.retryBackoffMaxMs <|> layer.retryBackoffMaxMs
  deadlineMs := other.deadlineMs <|> layer.deadlineMs
  streamDeadlineMs := other.streamDeadlineMs <|> layer.streamDeadlineMs
  offlineFlagSourcePath := other.offlineFlagSourcePath <|> layer.offlineFlagSourcePath
  offlinePollIntervalMs := other.offlinePollIntervalMs <|> layer.offlinePollIntervalMs
  syncMode := other.syncMode <|> layer.syncMode
  pollIntervalMs := other.pollIntervalMs <|> layer.pollIntervalMs
  syncToken := other.syncToken <|> layer.syncToken

/-- A duration in milliseconds, or its default. -/
def duration (ms : Option UInt64) (fallback : Duration) : Duration :=
  (ms.map fun n => Duration.ofMilliseconds n.toNat).getD fallback

/-- The configuration with the settings of a layer and the defaults of the others. -/
def finish (layer : ConfigLayer) : ResolverConfig :=
  let d : ResolverConfig := {}
  { host := layer.host.getD d.host
    port := layer.port.getD d.port
    tls := layer.tls.getD d.tls
    certPath := layer.certPath
    socketPath := layer.socketPath
    cache := layer.cache.getD d.cache
    maxCacheSize := layer.maxCacheSize.getD d.maxCacheSize
    resolver := layer.resolver.getD d.resolver
    selector := layer.selector
    maxEventStreamRetries := layer.maxEventStreamRetries.getD d.maxEventStreamRetries
    retryBackoff := duration layer.retryBackoffMs d.retryBackoff
    retryBackoffMax := duration layer.retryBackoffMaxMs d.retryBackoffMax
    deadline := duration layer.deadlineMs d.deadline
    streamDeadline := duration layer.streamDeadlineMs d.streamDeadline
    offlineFlagSourcePath := layer.offlineFlagSourcePath
    offlinePollInterval := duration layer.offlinePollIntervalMs d.offlinePollInterval
    syncMode := layer.syncMode.getD d.syncMode
    pollInterval := duration layer.pollIntervalMs d.pollInterval
    syncToken := layer.syncToken }

open Json.Reader in
/-- The form of a layer in a document. -/
def record : Json.Record ConfigLayer where
  name := "ResolverConfigLayer"
  fields :=
    let path := optional (stringAs "path string")
    let ms := optional uint64
    [ .defaulted "host" (optional string) fun v l => { l with host := v },
      .defaulted "port" (optional uint16) fun v l => { l with port := v },
      .defaulted "tls" (optional bool) fun v l => { l with tls := v },
      .defaulted "cert_path" path fun v l => { l with certPath := v },
      .defaulted "socket_path" path fun v l => { l with socketPath := v },
      .defaulted "cache" (optional Named.reader) fun v l => { l with cache := v },
      .defaulted "max_cache_size" (optional (uint64As "usize"))
        fun v l => { l with maxCacheSize := v },
      .defaulted "resolver" (optional Named.reader) fun v l => { l with resolver := v },
      .defaulted "selector" (optional string) fun v l => { l with selector := v },
      .defaulted "max_event_stream_retries" (optional uint32)
        fun v l => { l with maxEventStreamRetries := v },
      .defaulted "retry_backoff_ms" ms fun v l => { l with retryBackoffMs := v },
      .defaulted "retry_backoff_max_ms" ms fun v l => { l with retryBackoffMaxMs := v },
      .defaulted "deadline_ms" ms fun v l => { l with deadlineMs := v },
      .defaulted "stream_deadline_ms" ms fun v l => { l with streamDeadlineMs := v },
      .defaulted "offline_flag_source_path" path fun v l => { l with offlineFlagSourcePath := v },
      .defaulted "offline_poll_interval_ms" ms fun v l => { l with offlinePollIntervalMs := v },
      .defaulted "sync_mode" (optional Named.reader) fun v l => { l with syncMode := v },
      .defaulted "poll_interval_ms" ms fun v l => { l with pollIntervalMs := v },
      .defaulted "sync_token" (optional string) fun v l => { l with syncToken := v }]
  closed := false

/-- Reads a layer. -/
def reader : Json.Reader ConfigLayer := record.reader {}

/-- The layer as a tree, with `null` for the settings that it does not set. -/
def toJson (layer : ConfigLayer) : Json :=
  let text (s : Option String) : Json := (s.map Json.string).getD .null
  let number (n : Option UInt64) : Json := (n.map Json.ofUInt64).getD .null
  let named {α : Type} [Named α] (a : Option α) : Json := (a.map Named.toJson).getD .null
  .object [
    ("host", text layer.host),
    ("port", number (layer.port.map (·.toUInt64))),
    ("tls", (layer.tls.map Json.bool).getD .null),
    ("cert_path", text layer.certPath),
    ("socket_path", text layer.socketPath),
    ("cache", named layer.cache),
    ("max_cache_size", number layer.maxCacheSize),
    ("resolver", named layer.resolver),
    ("selector", text layer.selector),
    ("max_event_stream_retries", number (layer.maxEventStreamRetries.map (·.toUInt64))),
    ("retry_backoff_ms", number layer.retryBackoffMs),
    ("retry_backoff_max_ms", number layer.retryBackoffMaxMs),
    ("deadline_ms", number layer.deadlineMs),
    ("stream_deadline_ms", number layer.streamDeadlineMs),
    ("offline_flag_source_path", text layer.offlineFlagSourcePath),
    ("offline_poll_interval_ms", number layer.offlinePollIntervalMs),
    ("sync_mode", named layer.syncMode),
    ("poll_interval_ms", number layer.pollIntervalMs),
    ("sync_token", text layer.syncToken)]

end ConfigLayer

end FeatureFlags
