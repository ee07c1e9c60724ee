import FeatureFlags.Proofs.Resolver.Caching
import FeatureFlags.Proofs.Resolver.Outline

/-!
# Announcements are complete

A flag that is in no list of changed flags resolves as before. An accepted update announces each
flag whose scope it changes (`hasScope_handle`), and nothing else changes the set of flags; so the
scope of a flag that a run does not announce is the same before and after
(`hasScope_runEvents`). What a caller is told depends on the scope only, up to the signs of zeros
and the messages of errors (`resolve_agrees_of_unannounced`).
-/

namespace FeatureFlags

namespace Resolver

variable {resolver : Resolver} {flagKey : String}

/-- The current configuration of a resolver has the given scope for a flag. -/
def HasScope (resolver : Resolver) (flagKey : String)
    (scope : Option (FlagDefinition × Metadata)) : Prop :=
  ∃ snapshot, resolver.store.snapshot = some snapshot ∧ snapshot.set.scope flagKey = scope

/-- None of the events tells that the flag has changed. -/
def Unannounced (flagKey : String) (events : List ProviderEvent) : Prop :=
  ∀ event ∈ events, flagKey ∉ event.flagsChanged

theorem unannounced_append {xs ys : List ProviderEvent} :
    Unannounced flagKey (xs ++ ys) ↔ Unannounced flagKey xs ∧ Unannounced flagKey ys :=
  List.forall_mem_append

/-- Flags that an update changes are announced, if there is a configuration that it changes. -/
theorem not_mem_of_unannounced_announce {changed : List String} {origin : SyncMetadata}
    (configured : resolver.store.hasSnapshot = true)
    (h : Unannounced flagKey (resolver.announce changed origin)) : flagKey ∉ changed := by
  intro hmem
  have hchanged : changed.isEmpty = false := by
    cases changed with
    | nil => cases hmem
    | cons _ _ => rfl
  unfold announce at h
  rw [configured, hchanged] at h
  refine h (.configurationChanged changed origin) ?_ hmem
  exact List.mem_append_right _ List.mem_cons_self

/-- An event changes the scope of no flag but the announced ones. -/
theorem hasScope_handle {scope : Option (FlagDefinition × Metadata)}
    (h : resolver.HasScope flagKey scope) {event : StorageEvent}
    (unannounced : Unannounced flagKey (resolver.handle event).1) :
    (resolver.handle event).2.HasScope flagKey scope := by
  have handling := resolver.handle_handling event
  generalize resolver.handle event = result at handling unannounced ⊢
  cases handling with
  | @accepted _ payload set carries reads =>
    obtain ⟨snapshot, hs, hscope⟩ := h
    have configured : resolver.store.hasSnapshot = true := by simp [FlagStore.hasSnapshot, hs]
    have hset : resolver.store.set? = some snapshot.set := by simp [FlagStore.set?, hs]
    have hmem := not_mem_of_unannounced_announce configured unannounced
    rw [hset] at hmem
    refine ⟨resolver.store.stamp set payload, rfl, ?_⟩
    exact (FlagSet.scope_eq_of_not_mem_changedKeys hmem).symm.trans hscope
  | rejected carries fails => exact h
  | doubted doubt ready => exact h
  | ignored doubt unready => exact h
  | failed fatal => exact h

/-- A run changes the scope of no flag but the announced ones. -/
theorem hasScope_runEvents {scope : Option (FlagDefinition × Metadata)} {events : List StorageEvent}
    (h : resolver.HasScope flagKey scope)
    (unannounced : Unannounced flagKey (resolver.runEvents events).1) :
    (resolver.runEvents events).2.HasScope flagKey scope := by
  induction events generalizing resolver with
  | nil => exact h
  | cons event events ih =>
    obtain ⟨hfirst, hlater⟩ := unannounced_append.1 unannounced
    exact ih (hasScope_handle h hfirst) hlater

theorem evaluator_handle (resolver : Resolver) (event : StorageEvent) :
    (resolver.handle event).2.evaluator = resolver.evaluator := by
  have handling := resolver.handle_handling event
  generalize resolver.handle event = result at handling ⊢
  cases handling <;> rfl

theorem evaluator_runEvents (resolver : Resolver) (events : List StorageEvent) :
    (resolver.runEvents events).2.evaluator = resolver.evaluator := by
  induction events generalizing resolver with
  | nil => rfl
  | cons event events ih => exact (ih _).trans (evaluator_handle resolver event)

/-- No call changes the evaluator. -/
theorem evaluator_call (resolver : Resolver) (call : ResolverCall) :
    (resolver.call call).2.evaluator = resolver.evaluator := by
  cases call with
  | begin => rfl
  | handle event => exact evaluator_handle resolver event
  | resolve flagKey kind fallback context =>
    obtain ⟨_, hresolve, -⟩ := resolver.resolve_snd flagKey kind fallback context
    rw [Resolver.call, hresolve]
  | retire =>
    simp only [call, retire]
    split <;> rfl

theorem evaluator_run (resolver : Resolver) (calls : List ResolverCall) :
    (resolver.run calls).2.evaluator = resolver.evaluator := by
  induction calls generalizing resolver with
  | nil => rfl
  | cons call calls ih => exact (ih _).trans (evaluator_call resolver call)

theorem Sound.runEvents {contexts : List EvaluationContext} (sound : resolver.Sound contexts)
    (events : List StorageEvent) : (resolver.runEvents events).2.Sound contexts := by
  induction events generalizing resolver with
  | nil => exact sound
  | cons event events ih => exact ih (sound.handle event)

theorem Agree.runEvents {a b : Resolver} (h : a.Agree b) (events : List StorageEvent) :
    (a.runEvents events).1 = (b.runEvents events).1 ∧
      (a.runEvents events).2.Agree (b.runEvents events).2 := by
  induction events generalizing a b with
  | nil => exact ⟨rfl, h⟩
  | cons event events ih =>
    obtain ⟨hfirst, hnext⟩ := h.handle event
    obtain ⟨hlater, hlast⟩ := ih hnext
    simp only [Resolver.runEvents, hfirst, hlater]
    exact ⟨trivial, hlast⟩

/-! ## What callers are told -/

variable {kind : ValueKind} {fallback : kind.Carrier} {context : EvaluationContext}

/-- Without looking into caches, two resolvers with one scope for a flag tell a caller the same. -/
theorem answer_agrees {a b : Resolver} {scope : Option (FlagDefinition × Metadata)}
    (ha : a.HasScope flagKey scope) (hb : b.HasScope flagKey scope)
    (hae : a.evaluator = TargetingRules.evaluator) (hbe : b.evaluator = TargetingRules.evaluator) :
    ResolutionDetails.Agrees kind (a.answer flagKey kind fallback context)
      (b.answer flagKey kind fallback context) := by
  obtain ⟨snapshot, hs, hscope⟩ := ha
  obtain ⟨snapshot', hs', hscope'⟩ := hb
  unfold answer
  rw [hs, hs']
  dsimp only [compute]
  rw [hae, hbe]
  refine Evaluation.conclude_agrees ?_ flagKey kind fallback
  rw [Snapshot.outline_evaluate, Snapshot.outline_evaluate, hscope, hscope']

/-- A caller who asks before and after a run that does not announce the flag is told the same, no
matter what the caches hold. -/
theorem Sound.agrees_runEvents {contexts : List EvaluationContext}
    (sound : resolver.Sound contexts) (hc : context ∈ contexts) {later : Resolver}
    (hlater : later.Agree resolver) (soundLater : later.Sound contexts)
    (builtin : resolver.evaluator = TargetingRules.evaluator)
    (configured : resolver.store.hasSnapshot = true) {events : List StorageEvent}
    (unannounced : Unannounced flagKey (resolver.runEvents events).1) :
    ResolutionDetails.Agrees kind (resolver.resolve flagKey kind fallback context).1
      ((later.runEvents events).2.resolve flagKey kind fallback context).1 := by
  obtain ⟨snapshot, hs⟩ := Option.isSome_iff_exists.1 configured
  have hscope : resolver.HasScope flagKey (snapshot.set.scope flagKey) := ⟨snapshot, hs, rfl⟩
  rw [resolve_fst sound hc, resolve_fst (soundLater.runEvents events) hc,
    (hlater.runEvents events).2.answer]
  refine answer_agrees hscope (hasScope_runEvents hscope unannounced) builtin ?_
  rw [evaluator_runEvents, builtin]

/-- Announcements are complete: a flag that no event mentions between two moments of a run resolves
in the same way at both of them, whether or not the first answer went into the cache. -/
theorem resolve_agrees_of_unannounced (capacity : Nat) (route : CacheKey → Nat)
    (before after : List StorageEvent) (flagKey : String) (kind : ValueKind)
    (fallback : kind.Carrier) (context : EvaluationContext) :
    let start := (routed capacity route TargetingRules.evaluator).begin
    let earlier := (start.runEvents before).2
    let asked := earlier.resolve flagKey kind fallback context
    earlier.store.hasSnapshot = true →
    (∀ event ∈ (earlier.runEvents after).1, flagKey ∉ event.flagsChanged) →
      ResolutionDetails.Agrees kind asked.1
          ((earlier.runEvents after).2.resolve flagKey kind fallback context).1 ∧
        ResolutionDetails.Agrees kind asked.1
          ((asked.2.runEvents after).2.resolve flagKey kind fallback context).1 := by
  intro start earlier asked configured unannounced
  have hc : context ∈ [context] := List.mem_cons_self
  have free : EvaluationContext.CollisionFree [context] := by
    intro a ha b hb _
    rw [List.mem_singleton.1 ha, List.mem_singleton.1 hb]
  have soundStart : start.Sound [context] := sound_routed [context] capacity route _
  have sound : earlier.Sound [context] := soundStart.runEvents before
  have builtin : earlier.evaluator = TargetingRules.evaluator := evaluator_runEvents start before
  have hasked : asked.2.Agree earlier := by
    obtain ⟨cache, hr, -⟩ := earlier.resolve_snd flagKey kind fallback context
    rw [show asked.2 = _ from hr]
    exact ⟨rfl, rfl, rfl, rfl⟩
  refine ⟨?_, ?_⟩
  · exact sound.agrees_runEvents hc ⟨rfl, rfl, rfl, rfl⟩ sound builtin configured unannounced
  · exact sound.agrees_runEvents hc hasked (sound.resolve free hc flagKey kind fallback) builtin
      configured unannounced

/-- A run in which the source recovers with the other zero, which is announced by nobody. -/
theorem resolve_agrees_of_unannounced_other_zero :
    let start := (routed 2 ResolutionCache.spread TargetingRules.evaluator).begin
    let document := fun value => "\x7b\"flags\":\x7b\"f\":\x7b\"state\":\"ENABLED\"," ++
      "\"variants\":\x7b\"v\":" ++ value ++ "\x7d,\"defaultVariant\":\"v\"\x7d\x7d\x7d"
    let before : List StorageEvent := [.ready { content := .full (document "0.0") }]
    let after : List StorageEvent :=
      [.stale "quiet", .changed { content := .full (document "-0.0") }]
    let earlier := (start.runEvents before).2
    let asked := earlier.resolve "f" .double .zero {}
    let later := earlier.runEvents after
    (earlier.store.hasSnapshot = true ∧ later.1.map (·.flagsChanged) = [[], []]) ∧
      ResolutionDetails.Agrees .double asked.1 (later.2.resolve "f" .double .zero {}).1 ∧
        ResolutionDetails.Agrees .double asked.1
          ((asked.2.runEvents after).2.resolve "f" .double .zero {}).1 := by
  intro start document before after earlier asked later
  have configured : earlier.store.hasSnapshot = true := by decide +kernel
  have published : later.1.map (·.flagsChanged) = [[], []] := by decide +kernel
  refine ⟨⟨configured, published⟩, ?_⟩
  refine resolve_agrees_of_unannounced 2 _ before after "f" .double .zero {} configured
    fun event hevent hf => ?_
  have hmem : event.flagsChanged ∈ [[], []] := published ▸ List.mem_map_of_mem hevent
  simp only [List.mem_cons, List.not_mem_nil, or_false] at hmem
  rcases hmem with h | h <;> rw [h] at hf <;> simp at hf

end Resolver

end FeatureFlags
