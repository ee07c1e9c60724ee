import FeatureFlags.Proofs.Flag.Unsigned
import FeatureFlags.Proofs.Resolver.Run

/-!
# Events determine the state

Whoever knows the state of a resolver can follow it by the events that it publishes: `follow` says
what each event makes of the state. The events that `handle` gives lead from the state before to the
state after (`handle_follow`), and so do those of a run (`runEvents_follow`).

The events of a run are also in order (`Orderly`). A change is told only of a resolver that is
ready, with the keys of flags in their order, and staleness only of one that is ready. Nothing but a
`ready` event makes a resolver ready that was not, so there is one before the first change and
before the first staleness, and between any two times that the source falls silent
(`events_determine_state`).
-/

namespace FeatureFlags

/-! ## Following the state -/

namespace ResolverState

/-- What an event makes of the state that a subscriber takes the resolver to be in. -/
def follow (state : ResolverState) (event : ProviderEvent) : ResolverState :=
  match event.kind with
  | .ready => .ready
  | .configurationChanged => state
  | .stale => .stale
  | .error => if event.isFatal then .fatalError else state

/-- What events make of the state, one after the other. -/
def followAll (state : ResolverState) (events : List ProviderEvent) : ResolverState :=
  events.foldl follow state

variable {state : ResolverState} {event : ProviderEvent} {events : List ProviderEvent}

@[simp] theorem followAll_nil : state.followAll [] = state := rfl

@[simp] theorem followAll_cons :
    state.followAll (event :: events) = (state.follow event).followAll events := rfl

theorem followAll_append (xs ys : List ProviderEvent) :
    state.followAll (xs ++ ys) = (state.followAll xs).followAll ys :=
  List.foldl_append

/-- Only a `ready` event makes a resolver ready. -/
theorem kind_of_follow_eq_ready (unready : state ≠ .ready) (h : state.follow event = .ready) :
    event.kind = .ready := by
  unfold follow at h
  split at h
  · assumption
  · exact absurd h unready
  · cases h
  · split at h
    · cases h
    · exact absurd h unready

/-- A resolver becomes ready by a `ready` event only. -/
theorem exists_ready_of_followAll (unready : state ≠ .ready)
    (h : state.followAll events = .ready) : ∃ event ∈ events, event.kind = .ready := by
  induction events generalizing state with
  | nil => exact absurd h unready
  | cons event events ih =>
    by_cases hnext : state.follow event = .ready
    · exact ⟨event, List.mem_cons_self, kind_of_follow_eq_ready unready hnext⟩
    · obtain ⟨later, hm, hkind⟩ := ih hnext h
      exact ⟨later, List.mem_cons_of_mem _ hm, hkind⟩

theorem follow_of_stale (h : event.kind = .stale) : state.follow event = .stale := by
  unfold follow
  rw [h]

end ResolverState

/-! ## The order of events -/

/-- Whether a resolver in a state may publish an event. -/
def ProviderEvent.Fits (event : ProviderEvent) (state : ResolverState) : Prop :=
  match event.kind with
  | .ready => True
  | .configurationChanged =>
    state = .ready ∧ event.flagsChanged ≠ [] ∧ event.flagsChanged.Pairwise (· < ·)
  | .stale => state = .ready
  | .error => True

namespace ResolverState

/-- Each of the events may be published when its turn comes. -/
def Orderly : ResolverState → List ProviderEvent → Prop
  | _, [] => True
  | state, event :: events => event.Fits state ∧ (state.follow event).Orderly events

variable {state : ResolverState}

theorem orderly_append (xs ys : List ProviderEvent) :
    state.Orderly (xs ++ ys) ↔ state.Orderly xs ∧ (state.followAll xs).Orderly ys := by
  induction xs generalizing state with
  | nil => simp only [List.nil_append, Orderly, followAll_nil, true_and]
  | cons x xs ih => exact (and_congr_right fun _ => ih).trans and_assoc.symm

/-- In an orderly sequence, each event fits the state that the events before it lead to. -/
theorem Orderly.fits {earlier later : List ProviderEvent} {event : ProviderEvent}
    (h : state.Orderly (earlier ++ event :: later)) : event.Fits (state.followAll earlier) :=
  ((orderly_append _ _).1 h).2.1

end ResolverState

/-! ## What a resolver publishes -/

namespace Resolver

variable {resolver : Resolver}

/-- The events that announce an update make the resolver ready, in an orderly way. -/
theorem announce_follow (resolver : Resolver) {changed : List String}
    (sorted : changed.Pairwise (· < ·)) (origin : SyncMetadata) :
    resolver.state.followAll (resolver.announce changed origin) = .ready ∧
      resolver.state.Orderly (resolver.announce changed origin) := by
  -- The report of what has changed, which is made of a resolver that is ready by then.
  have report : ∀ state : ResolverState, state = .ready →
      let reported := if changed.isEmpty then [] else [.configurationChanged changed origin]
      state.followAll reported = .ready ∧ state.Orderly reported := by
    rintro _ rfl
    cases changed with
    | nil => exact ⟨rfl, trivial⟩
    | cons key keys => exact ⟨rfl, ⟨rfl, List.cons_ne_nil _ _, sorted⟩, trivial⟩
  unfold announce
  split
  · rw [ResolverState.followAll_append, ResolverState.orderly_append]
    split
    · rename_i ready
      obtain ⟨hstate, horderly⟩ := report resolver.state ready
      exact ⟨hstate, trivial, horderly⟩
    · obtain ⟨hstate, horderly⟩ := report .ready rfl
      exact ⟨hstate, ⟨trivial, trivial⟩, horderly⟩
  · exact ⟨rfl, trivial, trivial⟩

/-- The events that `handle` gives lead from the state before to the state after, in an orderly
way. -/
theorem handle_follow (resolver : Resolver) (event : StorageEvent) :
    resolver.state.followAll (resolver.handle event).1 = (resolver.handle event).2.state ∧
      resolver.state.Orderly (resolver.handle event).1 := by
  have handling := resolver.handle_handling event
  generalize resolver.handle event = result at handling ⊢
  cases handling with
  | accepted carries reads =>
    exact resolver.announce_follow (FlagSet.pairwise_changedKeys _ _) _
  | rejected carries fails => exact ⟨rfl, trivial, trivial⟩
  | doubted doubt ready => exact ⟨rfl, ready, trivial⟩
  | ignored doubt unready => exact ⟨rfl, trivial⟩
  | failed fatal => exact ⟨rfl, trivial, trivial⟩

/-- A change is published by an update that makes the resolver ready. -/
theorem state_of_configurationChanged {event : StorageEvent} {published : ProviderEvent}
    (h : published ∈ (resolver.handle event).1) (change : published.kind = .configurationChanged) :
    (resolver.handle event).2.state = .ready := by
  have handling := resolver.handle_handling event
  generalize resolver.handle event = result at handling h ⊢
  cases handling with
  | accepted carries reads => rfl
  | rejected carries fails => cases List.mem_singleton.1 h; cases change
  | doubted doubt ready => cases List.mem_singleton.1 h; cases change
  | ignored doubt unready => cases h
  | failed fatal => cases List.mem_singleton.1 h; cases change

/-- The events of a run lead from the state before it to the state after it, in an orderly way. -/
theorem runEvents_follow (resolver : Resolver) (events : List StorageEvent) :
    resolver.state.followAll (resolver.runEvents events).1 =
        (resolver.runEvents events).2.state ∧
      resolver.state.Orderly (resolver.runEvents events).1 := by
  induction events generalizing resolver with
  | nil => exact ⟨rfl, trivial⟩
  | cons event events ih =>
    obtain ⟨hstate, horderly⟩ := resolver.handle_follow event
    obtain ⟨hlater, hrest⟩ := ih (resolver.handle event).2
    simp only [runEvents, ResolverState.followAll_append, ResolverState.orderly_append, hstate]
    exact ⟨hlater, horderly, hrest⟩

/-- Events determine the state of a resolver that waits for its first configuration: those that it
has published always lead to the state that it is in. A change is published only while the resolver
is ready and with a list of keys in their order, no change and no staleness come before the first
`ready` event, and there is one between any two times that the resolver became stale. -/
theorem events_determine_state (capacity : Nat) (route : CacheKey → Nat)
    (evaluator : TargetingEvaluator) (handled : List StorageEvent) :
    let run := (routed capacity route evaluator).begin.runEvents handled
    ResolverState.initializing.followAll run.1 = run.2.state ∧
      (∀ event, ∀ published ∈ (run.2.handle event).1, published.kind = .configurationChanged →
        (run.2.handle event).2.state = .ready) ∧
      ∀ earlier event later, run.1 = earlier ++ event :: later →
        (event.kind = .configurationChanged →
          ResolverState.initializing.followAll earlier = .ready ∧
            event.flagsChanged ≠ [] ∧ event.flagsChanged.Pairwise (· < ·)) ∧
        (event.kind = .configurationChanged ∨ event.kind = .stale →
          ∃ first ∈ earlier, first.kind = .ready) ∧
        (event.kind = .stale → ∀ before last between, earlier = before ++ last :: between →
          last.kind = .stale → ∃ recovery ∈ between, recovery.kind = .ready) := by
  intro run
  obtain ⟨hstate, horderly⟩ := runEvents_follow (routed capacity route evaluator).begin handled
  refine ⟨hstate, fun event published h change => state_of_configurationChanged h change, ?_⟩
  intro earlier event later hrun
  have fits : event.Fits (ResolverState.initializing.followAll earlier) := by
    rw [show (Resolver.runEvents _ handled).1 = _ from hrun] at horderly
    exact horderly.fits
  have changes (change : event.kind = .configurationChanged) :
      ResolverState.initializing.followAll earlier = .ready ∧
        event.flagsChanged ≠ [] ∧ event.flagsChanged.Pairwise (· < ·) := by
    unfold ProviderEvent.Fits at fits
    rwa [change] at fits
  have stales (stale : event.kind = .stale) :
      ResolverState.initializing.followAll earlier = .ready := by
    unfold ProviderEvent.Fits at fits
    rwa [stale] at fits
  refine ⟨changes, ?_, ?_⟩
  · rintro (change | stale)
    · exact ResolverState.exists_ready_of_followAll (by exact nofun) (changes change).1
    · exact ResolverState.exists_ready_of_followAll (by exact nofun) (stales stale)
  · intro stale before last between hearlier hlast
    have hready := stales stale
    rw [hearlier, ResolverState.followAll_append, ResolverState.followAll_cons,
      ResolverState.follow_of_stale hlast] at hready
    exact ResolverState.exists_ready_of_followAll (by exact nofun) hready

/-- A run in which the source falls silent twice, and a flag is added in between. -/
theorem events_determine_state_two_silences :
    let document := "\x7b\"flags\":\x7b\"f\":\x7b\"state\":\"ENABLED\"," ++
      "\"variants\":\x7b\"v\":true\x7d,\"defaultVariant\":\"v\"\x7d\x7d\x7d"
    let handled : List StorageEvent := [.ready { content := .full "\x7b\"flags\":\x7b\x7d\x7d" },
      .stale "quiet", .changed { content := .full document }, .error ⟨"broken off", false⟩]
    let run := (routed 0 ResolutionCache.spread TargetingRules.evaluator).begin.runEvents handled
    let report := run.1.getD 3 default
    run.1.map (·.kind) = [.ready, .stale, .ready, .configurationChanged, .stale] ∧
      ResolverState.initializing.followAll run.1 = run.2.state ∧
      (ResolverState.initializing.followAll (run.1.take 3) = .ready ∧
        report.flagsChanged ≠ [] ∧ report.flagsChanged.Pairwise (· < ·)) ∧
      (∃ first ∈ run.1.take 3, first.kind = .ready) ∧
      ∃ recovery ∈ (run.1.take 4).drop 2, recovery.kind = .ready := by
  intro document handled run report
  have kinds : run.1.map (·.kind) = [.ready, .stale, .ready, .configurationChanged, .stale] := by
    decide +kernel
  obtain ⟨hstate, -, order⟩ :=
    events_determine_state 0 ResolutionCache.spread TargetingRules.evaluator handled
  obtain ⟨changes, first, -⟩ := order (run.1.take 3) report (run.1.drop 4) (by decide +kernel)
  obtain ⟨-, -, recovers⟩ := order (run.1.take 4) (run.1.getD 4 default) [] (by decide +kernel)
  have kind : report.kind = .configurationChanged := by decide +kernel
  -- The run is written out, so that it is not evaluated where the statements are compared.
  dsimp only [run, report] at kinds kind ⊢
  exact ⟨kinds, hstate, changes kind, first (.inl kind),
    recovers (by decide +kernel) (run.1.take 1) (run.1.getD 1 default) ((run.1.take 4).drop 2)
      (by decide +kernel) (by decide +kernel)⟩

end Resolver

end FeatureFlags
