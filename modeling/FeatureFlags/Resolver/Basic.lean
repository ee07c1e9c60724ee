import FeatureFlags.Cache
import FeatureFlags.Evaluation
import FeatureFlags.Event
import FeatureFlags.Store
import FeatureFlags.Sync.Error

/-!
# The resolver

The resolver holds the current configuration and answers from it. What the source has to tell
changes it through `handle`, which also gives the events to publish: an update that can be read
becomes the current configuration, one that cannot is reported and changes nothing, and while the
source is unhealthy the last configuration is served as stale. `resolve` looks up the value of a
flag for a caller. It never waits and never fails: without a configuration, or when something is
wrong with the flag, the caller's default is returned with the error.

Results are cached for the generation of the configuration that they were computed from.
-/

namespace FeatureFlags

/-- How the resolver stands. -/
inductive ResolverState where
  | notReady
  /-- Waiting for the first configuration. -/
  | initializing
  | ready
  /-- Serving the last configuration while the source is unhealthy. -/
  | stale
  /-- The source was given up for good. -/
  | fatalError
  deriving DecidableEq

namespace ResolverState

instance : Named ResolverState where
  all := [notReady, initializing, ready, stale, fatalError]
  name
    | notReady => "NotReady"
    | initializing => "Initializing"
    | ready => "Ready"
    | stale => "Stale"
    | fatalError => "FatalError"

end ResolverState

namespace Snapshot

/-- Evaluates a flag for a caller who asks for a kind. -/
def evaluate (snapshot : Snapshot) (key : String) (requested : ValueKind)
    (context : EvaluationContext) (evaluator : TargetingEvaluator) :
    Except ResolutionError Evaluation :=
  match snapshot.get? key with
  | none => .error ⟨.flagNotFound, "flag '" ++ key ++ "' not found"⟩
  | some flag => flag.evaluate requested context evaluator snapshot.set.metadata

end Snapshot

/-- The resolution that an evaluation gives a caller who asked for a kind, and what can be kept of
it. -/
def Evaluation.conclude (key : String) (kind : ValueKind) (fallback : kind.Carrier) :
    Except ResolutionError Evaluation → ResolutionDetails kind.Carrier × Option Evaluated
  | .error error => (.ofError fallback error, none)
  | .ok (.disabled metadata) => (.ofDisabled fallback metadata, none)
  | .ok (.value evaluated) =>
    match evaluated.value.as? kind with
    | some x => (.ofValue x evaluated, some evaluated)
    | none =>
      (.ofError fallback ⟨.typeMismatch, "flag '" ++ key ++ "' is not a " ++ Named.name kind⟩, none)

/-- The current configuration, with what was computed from it. -/
structure Resolver where
  store : FlagStore := {}
  cache : ResolutionCache
  state : ResolverState := .notReady
  /-- Why the source was given up. -/
  fatal : Option String := none
  evaluator : TargetingEvaluator := TargetingRules.evaluator

namespace Resolver

/-- A resolver without a configuration, and with room in its cache for a number of results. -/
def new (cacheCapacity : Nat) (evaluator : TargetingEvaluator) : Resolver :=
  { cache := .new cacheCapacity, evaluator }

/-- Where the current configuration came from. -/
def metadata (resolver : Resolver) : SyncMetadata :=
  (resolver.store.snapshot.map (·.syncMetadata)).getD ∅

/-! ## Changes of the configuration -/

/-- The events that tell of an accepted update: the first one makes the provider ready, a later one
does so again if it was not ready, and then reports what has changed. -/
def announce (resolver : Resolver) (changed : List String) (origin : SyncMetadata) :
    List ProviderEvent :=
  if resolver.store.hasSnapshot then
    (if resolver.state = .ready then [] else [.ready [] origin]) ++
      (if changed.isEmpty then [] else [.configurationChanged changed origin])
  else [.ready changed origin]

/-- Makes an update the current configuration. -/
def accept (resolver : Resolver) (set : FlagSet) (payload : SyncPayload) :
    List ProviderEvent × Resolver :=
  let changed := FlagSet.changedKeys resolver.store.set? set
  (resolver.announce changed payload.metadata,
    { resolver with
      cache := resolver.cache.invalidate resolver.store.nextGeneration
      store := resolver.store.replace set payload
      state := .ready })

/-- Takes an update, unless it cannot be read. -/
def applyPayload (resolver : Resolver) (payload : SyncPayload) : List ProviderEvent × Resolver :=
  match payload.content.apply resolver.store.set? with
  | .ok set => resolver.accept set payload
  | .error error =>
    ([.ofError .parseError ("invalid flag configuration: " ++ error.message) false], resolver)

/-- Takes note that the source is unhealthy. -/
def markStale (resolver : Resolver) (reason : String) : List ProviderEvent × Resolver :=
  if resolver.state = .ready then ([.stale reason], { resolver with state := .stale })
  else ([], resolver)

/-- Takes note that the source has failed. -/
def handleFailure (resolver : Resolver) (failure : SyncFailure) : List ProviderEvent × Resolver :=
  if failure.fatal then
    ([.ofError .general failure.message true],
      { resolver with state := .fatalError, fatal := some failure.message })
  else resolver.markStale failure.message

/-- What the source has to tell changes the resolver; the events are to be published. -/
def handle (resolver : Resolver) : StorageEvent → List ProviderEvent × Resolver
  | .ready payload => resolver.applyPayload payload
  | .changed payload => resolver.applyPayload payload
  | .stale reason => resolver.markStale reason
  | .error failure => resolver.handleFailure failure

/-! ## Life -/

/-- The resolver begins to wait for its first configuration. -/
def begin (resolver : Resolver) : Resolver := { resolver with state := .initializing }

/-- The source is asked no more. The last configuration is still served, and a resolver that gave up
its source for good stays as it is. -/
def retire (resolver : Resolver) : Resolver :=
  if resolver.state = .fatalError then resolver else { resolver with state := .notReady }

/-- The message of the failure for which the source was given up. -/
def fatalMessage (resolver : Resolver) : String := resolver.fatal.getD "flag sync failed"

/-- What a caller is told who waits for the first configuration, as soon as that is settled. -/
def verdict (resolver : Resolver) : Option (Except ResolverError Unit) :=
  match resolver.state with
  | .initializing => none
  | .ready => some (.ok ())
  | .stale => some (.ok ())
  | .fatalError => some (.error (.fatal resolver.fatalMessage))
  | .notReady => some (.error .shutdown)

/-! ## Resolution -/

/-- Why nothing can be resolved without a configuration. -/
def unavailable (resolver : Resolver) : ResolutionError :=
  if resolver.state = .fatalError then ⟨.general, resolver.fatalMessage⟩
  else ⟨.providerNotReady, "provider is not ready"⟩

/-- What the cache holds for a caller. -/
def lookup (resolver : Resolver) (key : CacheKey) (generation : Nat) :
    Option (ResolutionDetails key.kind.Carrier) × Resolver :=
  let (hit, cache) := resolver.cache.get key generation
  (hit.bind fun entry =>
      (entry.evaluated.value.as? key.kind).map fun value => .ofValue value entry.evaluated,
    { resolver with cache })

/-- Resolves a flag from a snapshot, without looking into the cache. -/
def compute (resolver : Resolver) (snapshot : Snapshot) (flagKey : String) (kind : ValueKind)
    (fallback : kind.Carrier) (context : EvaluationContext) :
    ResolutionDetails kind.Carrier × Option Evaluated :=
  Evaluation.conclude flagKey kind fallback
    (snapshot.evaluate flagKey kind context resolver.evaluator)

/-- Resolves a flag for a caller. -/
def resolve (resolver : Resolver) (flagKey : String) (kind : ValueKind) (fallback : kind.Carrier)
    (context : EvaluationContext) : ResolutionDetails kind.Carrier × Resolver :=
  match resolver.store.snapshot with
  | none => (.ofError fallback resolver.unavailable, resolver)
  | some snapshot =>
    if resolver.cache.isEnabled then
      let key : CacheKey := ⟨flagKey, kind, context.fingerprint⟩
      match resolver.lookup key snapshot.generation with
      | (some details, resolver) => (details, resolver)
      | (none, resolver) =>
        let (details, evaluated?) := resolver.compute snapshot flagKey kind fallback context
        let cache := evaluated?.elim resolver.cache fun evaluated =>
          resolver.cache.put key ⟨snapshot.generation, evaluated⟩
        (details, { resolver with cache })
    else ((resolver.compute snapshot flagKey kind fallback context).1, resolver)

end Resolver

end FeatureFlags
