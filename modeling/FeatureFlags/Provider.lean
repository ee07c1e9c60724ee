import FeatureFlags.Resolver.Service

/-!
# The provider

The provider is what an application sees of a resolver service: its name, a status in the terms of
applications, and the resolution of flags. It remembers when its last attempt to initialize took too
long, which makes the difference between waiting for the first configuration and having an error.
-/

namespace FeatureFlags

/-- How a provider stands. -/
inductive ProviderStatus where
  | notReady
  | ready
  | stale
  /-- The first configuration did not arrive in time, but is still waited for. -/
  | error
  | fatal
  deriving DecidableEq

namespace ProviderStatus

instance : Named ProviderStatus where
  all := [notReady, ready, stale, error, fatal]
  name
    | notReady => "NOT_READY"
    | ready => "READY"
    | stale => "STALE"
    | error => "ERROR"
    | fatal => "FATAL"

/-- The status of a provider with a resolver in some state. -/
def ofState (initFailed : Bool) : ResolverState → ProviderStatus
  | .ready => ready
  | .stale => stale
  | .fatalError => fatal
  | .initializing => if initFailed then error else notReady
  | .notReady => notReady

end ProviderStatus

/-- A resolver service as applications see it. -/
structure Provider (σ : Type) where
  service : ResolverService σ
  /-- Whether the last attempt to initialize took too long. -/
  initFailed : Bool := false

namespace Provider

/-- The name under which providers of this kind are known. -/
def name : String := "flagd-in-process"

variable {σ : Type}

def status (provider : Provider σ) : ProviderStatus :=
  .ofState provider.initFailed provider.service.resolver.state

def modify (provider : Provider σ) (f : ResolverService σ → ResolverService σ) : Provider σ :=
  { provider with service := f provider.service }

/-- Resolves a flag for a caller. -/
def resolve (provider : Provider σ) (flagKey : String) (kind : ValueKind)
    (fallback : kind.Carrier) (context : EvaluationContext) :
    ResolutionDetails kind.Carrier × Provider σ :=
  let (details, resolver) := provider.service.resolver.resolve flagKey kind fallback context
  (details, provider.modify fun service => { service with resolver })

variable [Channel σ]

/-- Waits for the first configuration, as long as the service is set up to. -/
def initialise (provider : Provider σ) : Except ResolverError Unit × Provider σ :=
  let (outcome, service) := provider.service.init provider.service.initTimeout
  let initFailed :=
    match outcome with
    | .ok () => false
    | .error (.initTimeout _) => true
    | .error _ => provider.initFailed
  (outcome, { service, initFailed })

end Provider

end FeatureFlags
