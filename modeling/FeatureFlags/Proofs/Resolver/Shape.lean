import FeatureFlags.Proofs.Dict
import FeatureFlags.Proofs.Flag.Values
import FeatureFlags.Proofs.Resolver.Interleaving

/-!
# The shape of a resolution

`FlagDefinition.Evaluates` lists all that evaluating a flag can come to, and `Resolver.Resolves` all
that a resolution can be, with the value that a stored one `ConvertsTo`. A value is converted to the
kinds that it satisfies and to no others (`FlagValue.isSome_as?`), so what was evaluated for a kind
can be served as that kind, whether it was just computed or kept in the cache; and what is in the
cache was evaluated for somebody (`Traced`), also in the middle of an update
(`SharedResolver.Valid.traced`). What the cases have in common is the `Shape` of a resolution
(`Reachable.resolve_shape`).
-/

namespace FeatureFlags

/-- A value is converted to the kinds that it satisfies. -/
theorem FlagValue.isSome_as? (value : FlagValue) (kind : ValueKind) :
    (value.as? kind).isSome = value.satisfies kind := by
  cases value <;> cases kind <;> rfl

/-- An error that is about a flag, which therefore is there. -/
def ResolutionError.IsOfFlag (error : ResolutionError) : Prop :=
  error.errorType ≠ .providerNotReady ∧ error.errorType ≠ .flagNotFound

namespace FlagDefinition

variable {flag : FlagDefinition} {context : EvaluationContext} {evaluator : TargetingEvaluator}

theorem isEnabled_eq_false_iff : flag.isEnabled = false ↔ flag.state = .disabled := by
  unfold isEnabled
  cases flag.state <;> simp

/-- How the reason for a variant fits the flag. -/
structure Selects (flag : FlagDefinition) (variant : String) (reason : Reason) : Prop where
  ne_error : reason ≠ .error
  ne_disabled : reason ≠ .disabled
  static_iff : reason = .static ↔ flag.targeting = none
  default : reason = .default → variant = flag.defaultVariant

theorem selects_of_select {variant : String} {reason : Reason}
    (h : flag.select context evaluator = .ok (variant, reason)) : flag.Selects variant reason := by
  unfold select at h
  split at h
  · rename_i untargeted
    cases h
    exact ⟨nofun, nofun, by simp [untargeted], nofun⟩
  · rename_i tree targeted
    split at h <;> cases h
    · exact ⟨nofun, nofun, by simp [targeted], nofun⟩
    · exact ⟨nofun, nofun, by simp [targeted], fun _ => rfl⟩

theorem isOfFlag_of_select {error : ResolutionError}
    (h : flag.select context evaluator = .error error) : error.IsOfFlag := by
  unfold select at h
  split at h
  · cases h
  · split at h <;> cases h
    rename_i error _
    cases error <;> exact ⟨nofun, nofun⟩

/-- All that evaluating a flag can come to. -/
inductive Evaluates (flag : FlagDefinition) (requested : ValueKind) (setMetadata : Metadata) :
    Except ResolutionError Evaluation → Prop
  | disabled (off : flag.isEnabled = false) :
      Evaluates flag requested setMetadata (.ok (.disabled (setMetadata.overlay flag.metadata)))
  | failed {error : ResolutionError} (on : flag.isEnabled = true) (ofFlag : error.IsOfFlag) :
      Evaluates flag requested setMetadata (.error error)
  | served {evaluated : Evaluated} (on : flag.isEnabled = true)
      (selects : flag.Selects evaluated.variant evaluated.reason)
      (there : flag.variant? evaluated.variant = some evaluated.value)
      (satisfies : evaluated.value.satisfies requested = true)
      (overlaid : evaluated.metadata = setMetadata.overlay flag.metadata) :
      Evaluates flag requested setMetadata (.ok (.value evaluated))

theorem evaluates (flag : FlagDefinition) (requested : ValueKind) (context : EvaluationContext)
    (evaluator : TargetingEvaluator) (setMetadata : Metadata) :
    flag.Evaluates requested setMetadata
      (flag.evaluate requested context evaluator setMetadata) := by
  unfold evaluate
  cases on : flag.isEnabled with
  | false => exact .disabled on
  | true =>
    cases hselect : flag.select context evaluator with
    | error error => exact .failed on (isOfFlag_of_select hselect)
    | ok selected =>
      obtain ⟨variant, reason⟩ := selected
      simp only [Bool.not_true, Bool.false_eq_true, if_false, bind, Except.bind, pure, Except.pure]
      split
      · exact .failed on ⟨nofun, nofun⟩
      · rename_i value there
        split
        · rename_i satisfies
          exact .served on (selects_of_select hselect) there satisfies rfl
        · exact .failed on ⟨nofun, nofun⟩

end FlagDefinition

namespace Resolver

variable {resolver : Resolver} {snapshot : Snapshot} {flagKey : String} {kind : ValueKind}
  {fallback : kind.Carrier} {context : EvaluationContext}

theorem errorType_unavailable (resolver : Resolver) : resolver.unavailable.errorType =
    if resolver.state = .fatalError then .general else .providerNotReady := by
  unfold unavailable
  split <;> rfl

/-- All that a resolution can be. -/
inductive Resolves (resolver : Resolver) (flagKey : String) (kind : ValueKind)
    (fallback : kind.Carrier) : ResolutionDetails kind.Carrier → Prop
  | unavailable (empty : resolver.store.snapshot = none) :
      Resolves resolver flagKey kind fallback (.ofError fallback resolver.unavailable)
  | unknown {snapshot : Snapshot} {error : ResolutionError}
      (current : resolver.store.snapshot = some snapshot)
      (lacking : snapshot.set.flags.get? flagKey = none)
      (notFound : error.errorType = .flagNotFound) :
      Resolves resolver flagKey kind fallback (.ofError fallback error)
  | disabled {snapshot : Snapshot} {flag : FlagDefinition}
      (current : resolver.store.snapshot = some snapshot)
      (held : snapshot.set.flags.get? flagKey = some flag) (off : flag.isEnabled = false) :
      Resolves resolver flagKey kind fallback
        (.ofDisabled fallback (snapshot.set.metadata.overlay flag.metadata))
  | failed {snapshot : Snapshot} {flag : FlagDefinition} {error : ResolutionError}
      (current : resolver.store.snapshot = some snapshot)
      (held : snapshot.set.flags.get? flagKey = some flag) (on : flag.isEnabled = true)
      (ofFlag : error.IsOfFlag) :
      Resolves resolver flagKey kind fallback (.ofError fallback error)
  | served {snapshot : Snapshot} {flag : FlagDefinition} {evaluated : Evaluated}
      {value : kind.Carrier} (current : resolver.store.snapshot = some snapshot)
      (held : snapshot.set.flags.get? flagKey = some flag) (on : flag.isEnabled = true)
      (selects : flag.Selects evaluated.variant evaluated.reason)
      (there : flag.variants.get? evaluated.variant = some evaluated.value)
      (converted : evaluated.value.ConvertsTo kind value)
      (overlaid : evaluated.metadata = snapshot.set.metadata.overlay flag.metadata) :
      Resolves resolver flagKey kind fallback (.ofValue value evaluated)

/-- What a snapshot evaluates for a kind can be served as that kind. -/
theorem isSome_as?_of_evaluate {evaluator : TargetingEvaluator} {evaluated : Evaluated}
    (h : snapshot.evaluate flagKey kind context evaluator = .ok (.value evaluated)) :
    (evaluated.value.as? kind).isSome = true := by
  unfold Snapshot.evaluate at h
  split at h
  · cases h
  · rename_i flag held
    have outcome := flag.evaluates kind context evaluator snapshot.set.metadata
    rw [h] at outcome
    cases outcome with
    | served on selects there satisfies overlaid => rwa [FlagValue.isSome_as?]

theorem resolves_compute (current : resolver.store.snapshot = some snapshot) :
    resolver.Resolves flagKey kind fallback
      (resolver.compute snapshot flagKey kind fallback context).1 := by
  unfold compute Snapshot.evaluate
  split
  · rename_i lacking
    exact .unknown current lacking rfl
  · rename_i flag held
    have outcome := flag.evaluates kind context resolver.evaluator snapshot.set.metadata
    generalize flag.evaluate kind context resolver.evaluator snapshot.set.metadata = result
      at outcome
    cases outcome with
    | disabled off => exact .disabled current held off
    | failed on ofFlag => exact .failed current held on ofFlag
    | served on selects there satisfies overlaid =>
      rw [← FlagValue.isSome_as?] at satisfies
      obtain ⟨value, converted⟩ := Option.isSome_iff_exists.1 satisfies
      rw [Evaluation.conclude_value converted]
      exact .served current held on selects there (FlagValue.as?_eq_some.1 converted) overlaid

theorem Traced.resolves (traced : resolver.Traced) :
    resolver.Resolves flagKey kind fallback
      (resolver.resolve flagKey kind fallback context).1 := by
  cases current : resolver.store.snapshot with
  | none =>
    rw [resolve_of_empty current]
    exact .unavailable current
  | some snapshot =>
    obtain ⟨asker, -, hanswer⟩ := traced.resolve_fst current flagKey kind fallback context
    rw [hanswer]
    exact resolves_compute current

/-- A resolution that is in the cache can be served as the kind that it is kept for. -/
theorem Traced.isSome_as?_of_get (traced : resolver.Traced)
    (current : resolver.store.snapshot = some snapshot) {key : CacheKey} {entry : CachedResolution}
    (hit : (resolver.cache.get key snapshot.generation).1 = some entry) :
    (entry.evaluated.value.as? key.kind).isSome = true := by
  obtain ⟨held, hgen, -⟩ := ResolutionCache.holds_of_get hit
  obtain ⟨asker, -, hevaluate⟩ := traced snapshot key entry current held hgen
  exact isSome_as?_of_evaluate hevaluate

/-! ## What every resolution has -/

/-- What a resolution of a flag tells a caller, by the configuration that the resolver has. -/
structure Shape (resolver : Resolver) (flagKey : String) (kind : ValueKind)
    (fallback : kind.Carrier) (details : ResolutionDetails kind.Carrier) : Prop where
  error_iff : details.error.isSome = true ↔ details.reason = .error
  /-- With an error there is nothing but the caller's default. -/
  error : details.reason = .error →
    details.value = fallback ∧ details.variant = none ∧ details.metadata = ∅
  disabled_iff : details.reason = .disabled ↔ ∃ snapshot flag,
    resolver.store.snapshot = some snapshot ∧ snapshot.set.flags.get? flagKey = some flag ∧
      flag.state = .disabled
  disabled : details.reason = .disabled → details.value = fallback ∧ details.variant = none
  /-- Otherwise a variant of the flag is served, converted to the kind that is asked for. -/
  served : details.reason ≠ .error → details.reason ≠ .disabled →
    ∃ snapshot flag variant stored,
      resolver.store.snapshot = some snapshot ∧ snapshot.set.flags.get? flagKey = some flag ∧
      details.variant = some variant ∧ flag.variants.get? variant = some stored ∧
      stored.ConvertsTo kind details.value ∧
      (details.reason = .static ↔ flag.targeting = none) ∧
      (details.reason = .default → variant = flag.defaultVariant) ∧
      ∀ name, details.metadata.get? name =
        (flag.metadata.get? name).or (snapshot.set.metadata.get? name)
  notReady_iff : details.error.map (·.errorType) = some .providerNotReady ↔
    resolver.store.snapshot = none ∧ resolver.state ≠ .fatalError
  notFound_iff : details.error.map (·.errorType) = some .flagNotFound ↔
    ∃ snapshot, resolver.store.snapshot = some snapshot ∧ snapshot.set.flags.get? flagKey = none

theorem Resolves.shape {details : ResolutionDetails kind.Carrier}
    (h : resolver.Resolves flagKey kind fallback details) :
    resolver.Shape flagKey kind fallback details := by
  cases h with
  | unavailable empty =>
    exact {
      error_iff := by simp [ResolutionDetails.ofError]
      error := fun _ => ⟨rfl, rfl, rfl⟩
      disabled_iff := by simp [ResolutionDetails.ofError, empty]
      disabled := nofun
      served := fun h => absurd rfl h
      notReady_iff := by simp [ResolutionDetails.ofError, errorType_unavailable, empty]
      notFound_iff := by
        simp only [ResolutionDetails.ofError, Option.map_some, errorType_unavailable, empty]
        split <;> simp }
  | @unknown snapshot error current lacking notFound =>
    exact {
      error_iff := by simp [ResolutionDetails.ofError]
      error := fun _ => ⟨rfl, rfl, rfl⟩
      disabled_iff := by simp [ResolutionDetails.ofError, current, lacking]
      disabled := nofun
      served := fun h => absurd rfl h
      notReady_iff := by simp [ResolutionDetails.ofError, current, notFound]
      notFound_iff := by simp [ResolutionDetails.ofError, current, notFound, lacking] }
  | @disabled snapshot flag current held off =>
    rw [FlagDefinition.isEnabled_eq_false_iff] at off
    exact {
      error_iff := by simp [ResolutionDetails.ofDisabled]
      error := nofun
      disabled_iff := by simp [ResolutionDetails.ofDisabled, current, held, off]
      disabled := fun _ => ⟨rfl, rfl⟩
      served := fun _ h => absurd rfl h
      notReady_iff := by simp [ResolutionDetails.ofDisabled, current]
      notFound_iff := by simp [ResolutionDetails.ofDisabled, current, held] }
  | @failed snapshot flag error current held on ofFlag =>
    rw [← Bool.not_eq_false, FlagDefinition.isEnabled_eq_false_iff] at on
    exact {
      error_iff := by simp [ResolutionDetails.ofError]
      error := fun _ => ⟨rfl, rfl, rfl⟩
      disabled_iff := by simp [ResolutionDetails.ofError, current, held, on]
      disabled := nofun
      served := fun h => absurd rfl h
      notReady_iff := by simp [ResolutionDetails.ofError, current, ofFlag.1]
      notFound_iff := by simp [ResolutionDetails.ofError, current, held, ofFlag.2] }
  | @served snapshot flag evaluated value current held on selects there converted overlaid =>
    rw [← Bool.not_eq_false, FlagDefinition.isEnabled_eq_false_iff] at on
    exact {
      error_iff := by simp [ResolutionDetails.ofValue, selects.ne_error]
      error := fun h => absurd h selects.ne_error
      disabled_iff := by simp [ResolutionDetails.ofValue, current, held, on, selects.ne_disabled]
      disabled := fun h => absurd h selects.ne_disabled
      served := fun _ _ => ⟨snapshot, flag, evaluated.variant, evaluated.value, current, held, rfl,
        there, converted, selects.static_iff, selects.default, fun name => by
          simp only [ResolutionDetails.ofValue, overlaid, Dict.get?_overlay]⟩
      notReady_iff := by simp [ResolutionDetails.ofValue, current]
      notFound_iff := by simp [ResolutionDetails.ofValue, current, held] }

/-! ## Reachable resolvers -/

/-- The states that a resolver gets into: by calls one after the other, and between the atomic
operations of resolutions that race updates, while its standing may change at any time. -/
inductive Reachable : Resolver → Prop
  | called (capacity : Nat) (route : CacheKey → Nat) (evaluator : TargetingEvaluator)
      (calls : List ResolverCall) : Reachable ((routed capacity route evaluator).run calls).2
  | racing (capacity : Nat) (route : CacheKey → Nat) (evaluator : TargetingEvaluator)
      (moves : List Move) (state : ResolverState) (fatal : Option String) :
      Reachable
        { ((SharedResolver.start capacity route evaluator).run moves).resolver with state, fatal }

theorem Reachable.traced (reachable : resolver.Reachable) : resolver.Traced := by
  cases reachable with
  | called capacity route evaluator calls =>
    exact (traced_routed capacity route evaluator).run calls
  | racing capacity route evaluator moves state fatal =>
    exact ((SharedResolver.valid_start capacity route evaluator).run moves).traced

/-- Whatever a resolver has been through, each resolution has its shape, and both defences against
values of a wrong kind are in vain: what is evaluated for the caller can always be served, and so
can what the cache holds for him. -/
theorem Reachable.resolve_shape (reachable : resolver.Reachable) (flagKey : String)
    (kind : ValueKind) (fallback : kind.Carrier) (context : EvaluationContext) :
    resolver.Shape flagKey kind fallback (resolver.resolve flagKey kind fallback context).1 ∧
      ∀ snapshot, resolver.store.snapshot = some snapshot →
        (∀ evaluated,
          snapshot.evaluate flagKey kind context resolver.evaluator = .ok (.value evaluated) →
            evaluated.value.as? kind ≠ none) ∧
        ∀ entry,
          (resolver.cache.get ⟨flagKey, kind, context.fingerprint⟩ snapshot.generation).1 =
            some entry → entry.evaluated.value.as? kind ≠ none := by
  refine ⟨reachable.traced.resolves.shape, fun snapshot current => ⟨fun evaluated h => ?_,
    fun entry hit => ?_⟩⟩
  · exact Option.isSome_iff_ne_none.1 (isSome_as?_of_evaluate h)
  · exact Option.isSome_iff_ne_none.1 (reachable.traced.isSome_as?_of_get current hit)

/-- A flag with an integer that lies between two doubles is published, and somebody asks for it as a
double. -/
def widening : List ResolverCall :=
  let document := "\x7b\"flags\":\x7b\"f\":\x7b\"state\":\"ENABLED\"," ++
    "\"variants\":\x7b\"on\":9007199254740993\x7d,\"defaultVariant\":\"on\"\x7d\x7d\x7d"
  [.begin, .handle (.ready { content := .full document }),
    .resolve "f" .double (FlagValue.widen 0) {}]

/-- Another one is served the double nearest to the integer from the cache, and the default for a
flag that is not there. -/
theorem resolve_shape_widening :
    let resolver := ((routed 2 ResolutionCache.spread TargetingRules.evaluator).run widening).2
    let found := (resolver.resolve "f" .double (FlagValue.widen 0) {}).1
    let missed := (resolver.resolve "g" .double (FlagValue.widen 0) {}).1
    (∃ entry, (resolver.cache.get ⟨"f", .double, EvaluationContext.fingerprint {}⟩ 1).1 =
        some entry ∧ entry.evaluated.value.as? .double ≠ none) ∧
      (∃ (snapshot : Snapshot) (flag : FlagDefinition), resolver.store.snapshot = some snapshot ∧
        snapshot.set.flags.get? "f" = some flag ∧ flag.targeting = none ∧
        flag.variants.get? "on" = some (.integer 9007199254740993)) ∧
      found.variant = some "on" ∧
      (found.value : Double) = ⟨⟨false, 0x4340000000000000, by decide⟩, by decide⟩ ∧
      missed.variant = none := by
  have every (flagKey : String) :=
    (Reachable.called 2 ResolutionCache.spread TargetingRules.evaluator widening).resolve_shape
      flagKey .double (FlagValue.widen 0) {}
  dsimp only at every ⊢
  -- Only the facts are computed; the rest must not look into the resolver.
  generalize hresolver :
    ((routed 2 ResolutionCache.spread TargetingRules.evaluator).run widening).2 = resolver
      at every ⊢
  obtain ⟨generation, integer, hit, on, static, error⟩ :
      resolver.store.snapshot.map (·.generation) = some 1 ∧
        ((resolver.store.snapshot.bind fun snapshot => snapshot.set.flags.get? "f").bind fun flag =>
          (flag.variants.get? "on").bind (·.as? .integer) : Option Int64) = some 9007199254740993 ∧
        (resolver.cache.get ⟨"f", .double, EvaluationContext.fingerprint {}⟩ 1).1.isSome = true ∧
        (resolver.resolve "f" .double (FlagValue.widen 0) {}).1.variant = some "on" ∧
        (resolver.resolve "f" .double (FlagValue.widen 0) {}).1.reason = .static ∧
        (resolver.resolve "g" .double (FlagValue.widen 0) {}).1.reason = .error := by
    subst hresolver
    decide +kernel
  obtain ⟨snapshot, current, first⟩ := Option.map_eq_some_iff.1 generation
  obtain ⟨entry, hentry⟩ := Option.isSome_iff_exists.1 hit
  have convertible := ((every "f").2 snapshot current).2 entry
  rw [first] at convertible
  have served := (every "f").1.served (fun h => nomatch static.symm.trans h)
    fun h => nomatch static.symm.trans h
  obtain ⟨snapshot, flag, variant, stored, current, held, selected, there, converted, untargeted,
    -⟩ := served
  obtain rfl : variant = "on" := Option.some.inj (selected.symm.trans on)
  rw [current, Option.bind_some, held, Option.bind_some, there] at integer
  obtain ⟨⟩ := FlagValue.as?_eq_some.1 integer
  have nearest : Binary64.IsNearestTo ⟨false, 0x4340000000000000, by decide⟩ 9007199254740993 :=
    (Binary64.isNearestTo_iff (by decide)).2 (by decide +kernel)
  exact ⟨⟨entry, hentry, convertible hentry⟩,
    ⟨snapshot, flag, current, held, untargeted.1 static, there⟩, on,
    FlagValue.eq_of_convertsTo converted (.widened (x := ⟨_, by decide⟩) nearest),
    ((every "g").1.error error).2.1⟩

end Resolver

end FeatureFlags
