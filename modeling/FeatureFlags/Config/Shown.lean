import FeatureFlags.Config.Basic
import FeatureFlags.Text.Quoted

/-!
# Showing values in diagnostics

The one-line form in which diagnostics show a record: its name, and its fields in braces. A token is
not shown.
-/

namespace FeatureFlags.Shown

/-- A record with its fields. -/
def record (name : String) (fields : List (String × String)) : String :=
  name ++ " \x7b " ++ ", ".intercalate (fields.map fun f => f.1 ++ ": " ++ f.2) ++ " \x7d"

/-- A value that may be missing. -/
def option {α : Type} (text : α → String) : Option α → String
  | none => "None"
  | some a => "Some(" ++ text a ++ ")"

/-- The layout of doubles: positional from 10⁻⁴ up to 10¹⁶, with an exponent beyond. -/
def doubleStyle : DecimalStyle := ⟨-3, 16, false⟩

def double (x : Binary64) : String := String.ofList (doubleStyle.render x)

def cacheType : CacheType → String
  | .lru => "Lru"
  | .disabled => "Disabled"

def resolverType : ResolverType → String
  | .inProcess => "InProcess"
  | .rpc => "Rpc"

def syncMode : SyncMode → String
  | .stream => "Stream"
  | .poll => "Poll"

def config (c : ResolverConfig) : String :=
  record "ResolverConfig" [
    ("host", Text.quoted c.host),
    ("port", toString c.port.toNat),
    ("tls", toString c.tls),
    ("cert_path", option Text.quotedPath c.certPath),
    ("socket_path", option Text.quotedPath c.socketPath),
    ("cache", cacheType c.cache),
    ("max_cache_size", toString c.maxCacheSize.toNat),
    ("resolver", resolverType c.resolver),
    ("selector", option Text.quoted c.selector),
    ("max_event_stream_retries", toString c.maxEventStreamRetries.toNat),
    ("retry_backoff", c.retryBackoff.text),
    ("retry_backoff_max", c.retryBackoffMax.text),
    ("deadline", c.deadline.text),
    ("stream_deadline", c.streamDeadline.text),
    ("offline_flag_source_path", option Text.quotedPath c.offlineFlagSourcePath),
    ("offline_poll_interval", c.offlinePollInterval.text),
    ("sync_mode", syncMode c.syncMode),
    ("poll_interval", c.pollInterval.text),
    ("sync_token", option (fun _ => Text.quoted "[REDACTED]") c.syncToken)]

def retryPolicy (p : RetryPolicy) : String :=
  record "RetryPolicy" [
    ("max_event_stream_retries", toString p.maxRetries.toNat),
    ("base_delay", p.baseDelay.text),
    ("max_delay", p.maxDelay.text),
    ("backoff_factor", double p.factor),
    ("jitter", toString p.jitter)]

end FeatureFlags.Shown
