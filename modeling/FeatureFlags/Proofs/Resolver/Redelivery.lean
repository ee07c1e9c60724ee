import FeatureFlags.Proofs.Flag.Deltas
import FeatureFlags.Proofs.Outcomes
import FeatureFlags.Proofs.Resolver.Rejection

/-!
# Updates that are delivered again

A source may deliver an update more than once, for instance when it is connected to again. Applied
to the set that it left, an update makes this same set (`PayloadContent.apply_again`), so the second
delivery changes no flag and is not announced as a change. It may only make the provider ready again
(`Resolver.deltas_compose_and_repeat_silently`).
-/

namespace FeatureFlags

open Outcome

/-- An update that is applied again leaves the set as it is. -/
theorem PayloadContent.apply_again {content : PayloadContent} {current : Option FlagSet}
    {set : FlagSet} (reads : content.apply current = .ok set) :
    content.apply (some set) = .ok set := by
  cases content with
  | full text => exact reads
  | delta text =>
    obtain ⟨delta, hdelta, rfl⟩ := map_eq_ok.1 reads
    rw [apply, hdelta]
    exact congrArg Except.ok (delta.applyTo_again _)

/-- An event that brings no update that can be read. -/
def StorageEvent.IsIdle (event : StorageEvent) : Prop :=
  ∀ payload, event.payload? = some payload → payload.content.isReadable = false

namespace Resolver

/-- An event without an update leaves the store alone. -/
theorem store_handle_of_idle (resolver : Resolver) {event : StorageEvent} (idle : event.IsIdle) :
    (resolver.handle event).2.store = resolver.store := by
  have handling := resolver.handle_handling event
  generalize resolver.handle event = result at handling ⊢
  cases handling with
  | accepted carries reads =>
    have readable := (PayloadContent.isReadable_iff _ _).2 ⟨_, reads⟩
    rw [idle _ carries] at readable
    cases readable
  | _ => rfl

theorem store_runEvents_of_idle (resolver : Resolver) {events : List StorageEvent}
    (idle : ∀ event ∈ events, event.IsIdle) :
    (resolver.runEvents events).2.store = resolver.store := by
  induction events generalizing resolver with
  | nil => rfl
  | cons event events ih =>
    obtain ⟨hfirst, hrest⟩ := List.forall_mem_cons.1 idle
    exact (ih _ hrest).trans (store_handle_of_idle resolver hfirst)

/-- An update that leaves the current set as it is makes the provider ready if it was not, and is
not announced as a change. -/
theorem handle_of_unchanged {resolver : Resolver} {event : StorageEvent} {payload : SyncPayload}
    {set : FlagSet} (carries : event.payload? = some payload)
    (current : resolver.store.set? = some set)
    (reads : payload.content.apply (some set) = .ok set) :
    (resolver.handle event).1 =
        (if resolver.state = .ready then [] else [.ready [] payload.metadata]) ∧
      (resolver.handle event).2.store.set? = some set := by
  have there : resolver.store.hasSnapshot = true := by
    unfold FlagStore.set? at current
    rw [FlagStore.hasSnapshot, ← Option.isSome_map (f := (·.set)), current]
    rfl
  have unchanged : FlagSet.changedKeys resolver.store.set? set = [] :=
    current ▸ set.changedKeys_self
  have accepted : resolver.handle event = resolver.accept set payload := by
    rw [handle_of_carries resolver carries, applyPayload, current, reads]
  rw [accepted]
  refine ⟨?_, rfl⟩
  dsimp only [accept]
  rw [unchanged, announce, if_pos there]
  exact List.append_nil _

/-- Deltas compose: one after the other is the delta that removes the keys of both and puts the
flags of both, where the second one counts. So a delta that is applied twice does what it does once. When
a resolver is handed an update again, with at most events between that bring no other, the flags
stay as they are and no key has changed: at most the provider becomes ready again. An update that
cannot be read is not announced as a change either. -/
theorem deltas_compose_and_repeat_silently :
    (∀ (base : Option FlagSet) (first second : FlagDelta),
      second.applyTo (first.applyTo (base.getD .empty)) =
        (first.andThen second).applyTo (base.getD .empty)) ∧
    (∀ (base : Option FlagSet) (delta : FlagDelta),
      delta.applyTo (delta.applyTo (base.getD .empty)) = delta.applyTo (base.getD .empty)) ∧
    ∀ (resolver : Resolver) (first again : StorageEvent) (payload payload' : SyncPayload)
      (between : List StorageEvent), first.payload? = some payload →
      again.payload? = some payload' → payload'.content = payload.content →
      (∀ event ∈ between, event.IsIdle) →
      let before := ((resolver.handle first).2.runEvents between).2
      (∀ set, payload.content.apply resolver.store.set? = .ok set →
        before.store.set? = some set ∧ payload'.content.apply before.store.set? = .ok set ∧
        FlagSet.changedKeys before.store.set? set = [] ∧
        (before.handle again).1 =
          (if before.state = .ready then [] else [.ready [] payload'.metadata]) ∧
        (before.handle again).2.store.set? = some set) ∧
      ∀ event ∈ (before.handle again).1, event.kind ≠ .configurationChanged := by
  refine ⟨fun base first second => first.applyTo_applyTo second _,
    fun base delta => delta.applyTo_again _, ?_⟩
  intro resolver first again payload payload' between carries carries' same idle before
  have settled {set : FlagSet} (reads : payload.content.apply resolver.store.set? = .ok set) :
      before.store.set? = some set := by
    have stored := store_runEvents_of_idle (resolver.handle first).2 idle
    rw [FlagStore.set?, stored, handle_of_carries resolver carries, applyPayload, reads]
    rfl
  have repeated {set : FlagSet} (reads : payload.content.apply resolver.store.set? = .ok set) :
      payload'.content.apply (some set) = .ok set :=
    same ▸ PayloadContent.apply_again reads
  refine ⟨fun set reads => ?_, fun event hevent => ?_⟩
  · obtain ⟨published, kept⟩ := handle_of_unchanged carries' (settled reads) (repeated reads)
    rw [settled reads]
    exact ⟨rfl, repeated reads, set.changedKeys_self, published, kept⟩
  · cases reads : payload.content.apply resolver.store.set? with
    | ok set =>
      rw [(handle_of_unchanged carries' (settled reads) (repeated reads)).1] at hevent
      split at hevent
      · cases hevent
      · cases List.mem_singleton.1 hevent
        exact ProviderEventKind.noConfusion
    | error error =>
      have fault := (payload.content.apply_eq_error_iff _ _).1 reads
      rw [handle_of_fault before carries' (same ▸ fault)] at hevent
      cases List.mem_singleton.1 hevent
      exact ProviderEventKind.noConfusion

/-- A flag that is published, and a delta that puts another one in its place. -/
def replacement : PayloadContent × PayloadContent :=
  let flag := "\x7b\"state\":\"ENABLED\",\"variants\":\x7b\"on\":true\x7d," ++
    "\"defaultVariant\":\"on\"\x7d"
  (.full ("\x7b\"flags\":\x7b\"a\":" ++ flag ++ "\x7d\x7d"),
    .delta ("\x7b\"flags\":\x7b\"b\":" ++ flag ++ "\x7d,\"removed\":[\"a\"]\x7d"))

/-- The delta is announced when it comes first; when it comes again after a silence of the source,
the provider is ready again, and that is all. -/
theorem deltas_compose_and_repeat_silently_replacement :
    let start := ((new 0 TargetingRules.evaluator).handle (.ready { content := replacement.1 })).2
    let delta : StorageEvent := .changed { content := replacement.2 }
    let silent := ((start.handle delta).2.runEvents [.stale "no events for 60000 ms"]).2
    (start.handle delta).1 = [.configurationChanged ["a", "b"] ∅] ∧
      (silent.handle delta).1 = [.ready [] ∅] := by
  dsimp only
  -- Only the facts are computed; the rest must not look into the resolver.
  generalize hstart :
    ((new 0 TargetingRules.evaluator).handle (.ready { content := replacement.1 })).2 = start
  obtain ⟨published, readable, stale⟩ :
      (start.handle (.changed { content := replacement.2 })).1 =
          [.configurationChanged ["a", "b"] ∅] ∧
        (replacement.2.apply start.store.set?).isOk = true ∧
        ((start.handle (.changed { content := replacement.2 })).2.runEvents
          [.stale "no events for 60000 ms"]).2.state = .stale := by
    subst hstart
    decide +kernel
  obtain ⟨set, reads⟩ := exists_of_isOk readable
  obtain ⟨-, -, redelivered⟩ := deltas_compose_and_repeat_silently
  have idle : ∀ event ∈ [StorageEvent.stale "no events for 60000 ms"], event.IsIdle := by
    simp [StorageEvent.IsIdle, StorageEvent.payload?]
  obtain ⟨-, -, -, again, -⟩ := (redelivered start (.changed { content := replacement.2 })
    (.changed { content := replacement.2 }) { content := replacement.2 }
    { content := replacement.2 } _ rfl rfl rfl idle).1 set reads
  rw [stale] at again
  exact ⟨published, again⟩

end Resolver

end FeatureFlags
