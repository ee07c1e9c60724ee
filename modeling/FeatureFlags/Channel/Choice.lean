import FeatureFlags.Channel.File
import FeatureFlags.Channel.Poll
import FeatureFlags.Channel.Sse
import FeatureFlags.Config.Basic

/-!
# The channel that a configuration asks for

A file is chosen before polling, and polling before streaming. A channel that speaks to a server
needs the certificate that the configuration names.
-/

namespace FeatureFlags

/-- The channels that a configuration can ask for. -/
inductive ConfiguredChannel where
  | file (channel : FileChannel)
  | poll (channel : PollChannel)
  | sse (channel : SseChannel)

namespace ConfiguredChannel

/-- The short name of the kind of a channel. -/
def kind : ConfiguredChannel → String
  | file _ => "file"
  | poll _ => "poll"
  | sse _ => "sse"

/-- Looks for a certificate. -/
def certificate (path : String) (files : Files) : Except ConfigError Unit :=
  match files path with
  | none => .error (.tls ("failed to read " ++ path ++ ": No such file or directory (os error 2)"))
  | some .directory =>
    .error (.tls ("failed to read " ++ path ++ ": Is a directory (os error 21)"))
  | some (.file _) => .ok ()

/-- Where requests for a path of the server are sent. -/
def target (config : ResolverConfig) (path : String) : HttpTarget :=
  { url := config.baseUrl ++ path, selector := config.selector, token := config.syncToken }

/-- The channel that a configuration asks for. -/
def ofConfig (config : ResolverConfig) (files : Files) : Except ConfigError ConfiguredChannel := do
  config.validate files
  match config.offlineFlagSourcePath with
  | some path => return file { path, pollInterval := config.offlinePollInterval }
  | none =>
    match config.certPath with
    | some path => certificate path files
    | none => pure ()
    return match config.syncMode with
      | .poll =>
        poll { target := target config PollChannel.path, interval := config.pollInterval }
      | .stream =>
        sse { target := target config SseChannel.path, staleAfter := config.streamDeadline }

end ConfiguredChannel

end FeatureFlags
