import FeatureFlags.Config.Shown
import FeatureFlags.Resolver.Service

/-!
# Showing a service in diagnostics
-/

namespace FeatureFlags.Shown

variable {σ : Type} [Channel σ]

/-- The driver of a channel. -/
def driver (writer : Writer σ) : String :=
  record "SyncDriver" [
    ("channel", Text.quoted (Channel.kind σ)),
    ("policy", retryPolicy writer.driver.backoff.policy),
    ("state", Named.name writer.driver.state)]

/-- A service, with the generation of its configuration. -/
def service (service : ResolverService σ) : String :=
  record "Resolver" [
    ("state", Named.name service.resolver.state),
    ("generation", toString service.resolver.store.generation),
    ("driver", driver service.writer)]

end FeatureFlags.Shown
