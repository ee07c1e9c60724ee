import FeatureFlags.Config.Basic

/-!
# Errors of sources and of the resolver's life

A `SyncError` is why a session with a source could not be opened or broke off. Most of them pass, so
that a new session may succeed. A `ResolverError` is what a caller is told who waits for the
resolver.
-/

namespace FeatureFlags

/-- Why a session could not be opened or broke off. -/
inductive SyncError where
  | connect (detail : String)
  /-- The server answered with an error. -/
  | http (status : Nat) (message : String)
  | stream (message : String)
  | io (message : String)
  /-- The path of a flag file names no file. -/
  | notAFileName (path : String)
  | watch (message : String)
  /-- Nothing arrived for too long. -/
  | idle (silence : Duration)
  | closed
  | unavailable (message : String)
  | cancelled
  deriving DecidableEq

namespace SyncError

/-- Whether a new session may succeed. -/
def isRetryable : SyncError → Bool
  | http status _ => status == 408 || status == 429 || (500 ≤ status && status ≤ 599)
  | cancelled => false
  | _ => true

def message : SyncError → String
  | connect detail => "Failed to connect to sync server: " ++ detail
  | http status message =>
    "Sync server returned an error: " ++ toString status ++ " - " ++ message
  | stream message => "Sync stream error: " ++ message
  | io message => "Flag source I/O error: " ++ message
  | notAFileName path => "Flag source I/O error: " ++ path ++ " does not name a file"
  | watch message => "Flag file watch error: " ++ message
  | idle silence => "Sync stream idle for " ++ silence.text
  | closed => "Sync session closed by source"
  | unavailable message => "Sync source unavailable: " ++ message
  | cancelled => "Sync cancelled"

end SyncError

/-- What a caller is told who waits for the resolver. -/
inductive ResolverError where
  /-- No configuration arrived in time; the source is still being asked. -/
  | initTimeout (deadline : Duration)
  /-- No configuration will arrive any more. -/
  | fatal (message : String)
  | shutdown
  | config (error : ConfigError)
  | sync (error : SyncError)
  deriving DecidableEq

namespace ResolverError

def message : ResolverError → String
  | initTimeout deadline => "Resolver initialization timed out after " ++ deadline.text
  | fatal message => "Resolver entered a fatal state: " ++ message
  | shutdown => "Resolver has been shut down"
  | config error => error.message
  | sync error => error.message

end ResolverError

end FeatureFlags
