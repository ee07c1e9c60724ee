import FeatureFlags.Proofs.Resolver.Caching
import FeatureFlags.Proofs.Resolver.Rejection
import FeatureFlags.Proofs.Sync.Run

/-!
# The life of a resolver

A resolver waits for its first configuration, follows its source until that is given up for good or
the resolver is retired, and is resolved from all the while (`ResolverLife`). Its store, its cache,
its state, its fatal message and the events that it has published are changed one after the other,
but they go in lockstep (`Lockstep`): the generations of store and cache count the accepted updates,
the state says whether there is a configuration, and a fatal failure is the last thing that was
published. Each call keeps them so (`Lockstep.call`), and so does a run
(`pieces_go_in_lockstep`).
-/

namespace FeatureFlags

/-- What a resolver lives through. -/
inductive ResolverLife where
  | idle
  /-- It follows its source. -/
  | following
  /-- The source was given up for good, and has nothing more to tell. -/
  | failed
  /-- The source is asked no more. -/
  | retired
  deriving DecidableEq

namespace ResolverLife

/-- What a call makes of the life, if it can be made. Only an idle resolver begins, and the source
has nothing to tell after a fatal failure or once the resolver is retired. -/
def next : ResolverLife → ResolverCall → Option ResolverLife
  | life, .resolve .. => some life
  | _, .retire => some .retired
  | .idle, .begin => some .following
  | .idle, .handle event => some (if event.isFatal then .failed else .following)
  | .following, .handle event => some (if event.isFatal then .failed else .following)
  | _, _ => none

/-- What calls make of the life, one after the other. -/
def along (life : ResolverLife) (calls : List ResolverCall) : Option ResolverLife :=
  calls.foldlM next life

theorem along_cons (life : ResolverLife) (call : ResolverCall) (calls : List ResolverCall) :
    life.along (call :: calls) = (life.next call).bind (·.along calls) := rfl

/-- How a resolver stands, with or without a configuration. -/
def Fits (life : ResolverLife) (state : ResolverState) (configured : Bool) : Prop :=
  match life with
  | idle => state = .notReady ∧ configured = false
  | following =>
    if configured then state = .ready ∨ state = .stale
    else state = .initializing ∨ state = .notReady
  | failed => state = .fatalError
  | retired => state = .notReady ∨ state = .fatalError

namespace Fits

variable {life : ResolverLife} {state : ResolverState} {configured : Bool}

/-- A resolver that waits for its first configuration has none. -/
theorem unconfigured (fits : life.Fits state configured)
    (waiting : state = .initializing ∨ state = .notReady ∧ life ≠ .retired) :
    configured = false := by
  rcases waiting with rfl | ⟨rfl, active⟩ <;> cases life <;> cases configured <;>
    simp_all [Fits]

/-- A resolver that is ready or stale has a configuration. -/
theorem configured_of_serving (fits : life.Fits state configured)
    (serving : state = .ready ∨ state = .stale) : configured = true := by
  rcases serving with rfl | rfl <;> cases life <;> cases configured <;> simp_all [Fits]

/-- A resolver that follows its source has not failed. -/
theorem ne_fatalError (fits : following.Fits state configured) : state ≠ .fatalError := by
  rintro rfl
  cases configured <;> simp [Fits] at fits

/-- A resolver that has a configuration is ready or stale for as long as it follows its source. -/
theorem serving (fits : life.Fits state configured) (present : configured = true)
    (active : life ≠ .retired) (hopeful : life ≠ .failed) : state = .ready ∨ state = .stale := by
  cases life <;> simp_all [Fits]

end Fits

end ResolverLife

/-- Whether the call hands the resolver an update that can be read. -/
def ResolverCall.isAccepted : ResolverCall → Bool
  | handle event => event.payload?.any (·.content.isReadable)
  | _ => false

namespace StorageEvent

variable {event : StorageEvent}

theorem not_fatal_of_payload {payload : SyncPayload} (carries : event.payload? = some payload) :
    event.isFatal = false := by
  cases event with
  | ready payload => rfl
  | changed payload => rfl
  | stale reason => rfl
  | error failure => cases carries

theorem not_fatal_of_doubt {reason : String} (doubt : event.doubt? = some reason) :
    event.isFatal = false := by
  cases event with
  | ready payload => rfl
  | changed payload => rfl
  | stale reason => rfl
  | error failure =>
    rw [doubt?] at doubt
    split at doubt
    · cases doubt
    · rename_i passing
      exact Bool.eq_false_iff.2 passing

theorem payload?_of_doubt {reason : String} (doubt : event.doubt? = some reason) :
    event.payload? = none := by
  cases event with
  | ready payload => cases doubt
  | changed payload => cases doubt
  | stale reason => rfl
  | error failure => rfl

end StorageEvent

namespace Resolver

/-- The pieces of a resolver go together, after some updates were accepted and some events were
told. -/
structure Lockstep (resolver : Resolver) (life : ResolverLife) (accepted : Nat)
    (told : List ProviderEvent) : Prop where
  store_generation : resolver.store.generation = accepted
  cache_generation : resolver.cache.generation = accepted
  stamped : ∀ key entry, resolver.cache.Holds key entry → entry.generation = accepted
  fits : life.Fits resolver.state resolver.store.hasSnapshot
  quiet : resolver.state ≠ .fatalError → ∀ event ∈ told, event.isFatal = false
  explained : resolver.state = .fatalError → ∃ earlier message,
    resolver.fatal = some message ∧ told = earlier ++ [.ofError .general message true] ∧
      ∀ event ∈ earlier, event.isFatal = false

variable {resolver : Resolver} {life later : ResolverLife} {accepted : Nat}
  {told : List ProviderEvent}

theorem not_fatal_announce (resolver : Resolver) (changed : List String) (origin : SyncMetadata) :
    ∀ event ∈ resolver.announce changed origin, event.isFatal = false := by
  intro event h
  unfold announce at h
  split at h
  · simp only [List.mem_append, List.mem_ite_nil_left, List.mem_singleton] at h
    rcases h with ⟨-, rfl⟩ | ⟨-, rfl⟩
    · rfl
    · rfl
  · rw [List.mem_singleton.1 h]
    rfl

namespace Lockstep

theorem routed (capacity : Nat) (route : CacheKey → Nat) (evaluator : TargetingEvaluator) :
    (routed capacity route evaluator).Lockstep .idle 0 [] :=
  ⟨rfl, rfl, fun _ _ held => absurd held (ResolutionCache.not_holds_routed _ _), ⟨rfl, rfl⟩,
    fun _ _ h => absurd h List.not_mem_nil, nofun⟩

/-- Events that are not fatal are told while the resolver is in a state that is not fatal. -/
theorem quiet_append {events : List ProviderEvent} (lockstep : resolver.Lockstep life accepted told)
    (hoping : resolver.state ≠ .fatalError) (harmless : ∀ event ∈ events, event.isFatal = false) :
    ∀ event ∈ told ++ events, event.isFatal = false := by
  intro event h
  rcases List.mem_append.1 h with h | h
  · exact lockstep.quiet hoping event h
  · exact harmless event h

/-- A resolver that its source can still tell something stands like one that follows its source,
even if it has not begun. -/
theorem standing_of_next {event : StorageEvent} (lockstep : resolver.Lockstep life accepted told)
    (lived : life.next (.handle event) = some later) :
    (later = if event.isFatal then .failed else .following) ∧
      ResolverLife.Fits .following resolver.state resolver.store.hasSnapshot := by
  have fits := lockstep.fits
  cases life with
  | idle =>
    cases lived
    obtain ⟨hstate, hempty⟩ := fits
    rw [hstate, hempty]
    exact ⟨rfl, .inr rfl⟩
  | following =>
    cases lived
    exact ⟨rfl, fits⟩
  | failed => cases lived
  | retired => cases lived

/-- Nothing but the state changes, and nothing fatal is told. -/
theorem waver (lockstep : resolver.Lockstep life accepted told)
    (hoping : resolver.state ≠ .fatalError) (state : ResolverState) (passing : state ≠ .fatalError)
    (fits : later.Fits state resolver.store.hasSnapshot) {events : List ProviderEvent}
    (harmless : ∀ event ∈ events, event.isFatal = false) :
    { resolver with state }.Lockstep later accepted (told ++ events) :=
  ⟨lockstep.store_generation, lockstep.cache_generation, lockstep.stamped, fits,
    fun _ => lockstep.quiet_append hoping harmless, fun fatal => absurd fatal passing⟩

theorem handle (lockstep : resolver.Lockstep life accepted told) {event : StorageEvent}
    (lived : life.next (.handle event) = some later) :
    (resolver.handle event).2.Lockstep later
      (accepted + if (ResolverCall.handle event).isAccepted then 1 else 0)
      (told ++ (resolver.handle event).1) := by
  obtain ⟨rfl, standing⟩ := lockstep.standing_of_next lived
  have hoping := standing.ne_fatalError
  have handling := resolver.handle_handling event
  generalize resolver.handle event = result at handling ⊢
  cases handling with
  | @accepted _ payload set carries reads =>
    have haccepted : (ResolverCall.handle event).isAccepted = true := by
      rw [ResolverCall.isAccepted, carries]
      exact (payload.content.isReadable_iff _).2 ⟨set, reads⟩
    have hgeneration : resolver.store.nextGeneration = accepted + 1 :=
      congrArg (· + 1) lockstep.store_generation
    rw [haccepted, StorageEvent.not_fatal_of_payload carries, if_pos rfl,
      if_neg Bool.false_ne_true]
    refine ⟨hgeneration, hgeneration, fun key entry held => ?_, .inl rfl, fun _ => ?_, nofun⟩
    · exact absurd held (ResolutionCache.not_holds_invalidate _)
    · exact lockstep.quiet_append hoping (resolver.not_fatal_announce _ _)
  | @rejected _ payload error carries fails =>
    have hrejected : (ResolverCall.handle event).isAccepted = false := by
      rw [ResolverCall.isAccepted, carries, Option.any_some, Bool.eq_false_iff]
      intro readable
      obtain ⟨set, reads⟩ := (payload.content.isReadable_iff resolver.store.set?).1 readable
      rw [fails] at reads
      cases reads
    rw [hrejected, StorageEvent.not_fatal_of_payload carries, if_neg Bool.false_ne_true,
      if_neg Bool.false_ne_true]
    refine lockstep.waver hoping _ hoping standing fun other h => ?_
    rw [List.mem_singleton.1 h]
    rfl
  | @doubted _ reason doubt ready =>
    rw [ResolverCall.isAccepted, StorageEvent.payload?_of_doubt doubt,
      StorageEvent.not_fatal_of_doubt doubt]
    have configured := standing.configured_of_serving (.inl ready)
    refine lockstep.waver hoping .stale nofun ?_ fun other h => ?_
    · rw [configured]
      exact .inr rfl
    · rw [List.mem_singleton.1 h]
      rfl
  | @ignored _ reason doubt unready =>
    rw [ResolverCall.isAccepted, StorageEvent.payload?_of_doubt doubt,
      StorageEvent.not_fatal_of_doubt doubt]
    exact lockstep.waver hoping _ hoping standing fun _ h => absurd h List.not_mem_nil
  | @failed failure fatal =>
    rw [StorageEvent.isFatal, fatal, if_pos rfl]
    exact ⟨lockstep.store_generation, lockstep.cache_generation, lockstep.stamped, rfl,
      fun hope => absurd rfl hope, fun _ => ⟨told, _, rfl, rfl, lockstep.quiet hoping⟩⟩

theorem begin (lockstep : resolver.Lockstep .idle accepted told) :
    resolver.begin.Lockstep .following accepted (told ++ []) := by
  obtain ⟨hstate, hempty⟩ := lockstep.fits
  have hoping : resolver.state ≠ .fatalError := by
    rw [hstate]
    exact nofun
  refine lockstep.waver hoping .initializing nofun ?_ fun _ h => absurd h List.not_mem_nil
  rw [hempty]
  exact .inl rfl

theorem retire (lockstep : resolver.Lockstep life accepted told) :
    resolver.retire.Lockstep .retired accepted (told ++ []) := by
  unfold Resolver.retire
  split
  · rename_i fatal
    rw [List.append_nil]
    exact { lockstep with fits := .inr fatal }
  · rename_i hoping
    have fits : ResolverLife.Fits .retired .notReady resolver.store.hasSnapshot := .inl rfl
    exact lockstep.waver hoping .notReady nofun fits fun _ h => absurd h List.not_mem_nil

theorem resolve (lockstep : resolver.Lockstep life accepted told) (flagKey : String)
    (kind : ValueKind) (fallback : kind.Carrier) (context : EvaluationContext) :
    (resolver.resolve flagKey kind fallback context).2.Lockstep life accepted (told ++ []) := by
  obtain ⟨cache, hresolve, hgeneration, hcache⟩ :=
    resolver.resolve_snd flagKey kind fallback context
  rw [hresolve, List.append_nil]
  refine { lockstep with
    cache_generation := hgeneration.trans lockstep.cache_generation
    stamped := fun key entry held => ?_ }
  rcases hcache key entry held with held | ⟨hentry, -⟩
  · exact lockstep.stamped key entry held
  · exact hentry.trans lockstep.cache_generation

theorem call (lockstep : resolver.Lockstep life accepted told) {call : ResolverCall}
    (lived : life.next call = some later) :
    (resolver.call call).2.Lockstep later (accepted + if call.isAccepted then 1 else 0)
      (told ++ ResolverCall.published ⟨call, (resolver.call call).1⟩) := by
  cases call with
  | begin =>
    cases life with
    | idle =>
      cases lived
      exact lockstep.begin
    | following => cases lived
    | failed => cases lived
    | retired => cases lived
  | handle event => exact lockstep.handle lived
  | resolve flagKey kind fallback context =>
    have hlife : later = life := by cases life <;> cases lived <;> rfl
    rw [hlife]
    exact lockstep.resolve flagKey kind fallback context
  | retire =>
    have hlife : later = .retired := by cases life <;> cases lived <;> rfl
    rw [hlife]
    exact lockstep.retire

theorem run (lockstep : resolver.Lockstep life accepted told) {calls : List ResolverCall}
    (lived : life.along calls = some later) :
    (resolver.run calls).2.Lockstep later (accepted + calls.countP (·.isAccepted))
      (told ++ (resolver.run calls).1.flatMap ResolverCall.published) := by
  induction calls generalizing resolver life accepted told with
  | nil =>
    cases lived
    show resolver.Lockstep _ accepted (told ++ [])
    rw [List.append_nil]
    exact lockstep
  | cons call calls ih =>
    rw [ResolverLife.along_cons] at lived
    obtain ⟨between, hcall, hcalls⟩ := Option.bind_eq_some_iff.1 lived
    have hlater := ih (lockstep.call hcall) hcalls
    rw [List.countP_cons, Nat.add_comm (List.countP _ _), ← Nat.add_assoc]
    rw [List.append_assoc] at hlater
    exact hlater

/-- A resolver goes on to follow its source as long as it is told nothing fatal. -/
theorem runEvents (lockstep : resolver.Lockstep .following accepted told)
    {events : List StorageEvent} (passing : ∀ event ∈ events, event.isFatal = false) :
    ∃ accepted, (resolver.runEvents events).2.Lockstep .following accepted
      (told ++ (resolver.runEvents events).1) := by
  induction events generalizing resolver accepted told with
  | nil => exact ⟨accepted, (List.append_nil told).symm ▸ lockstep⟩
  | cons event events ih =>
    have lived : ResolverLife.next .following (.handle event) = some .following := by
      show some (if event.isFatal then _ else _) = _
      rw [passing event List.mem_cons_self]
      rfl
    obtain ⟨total, hlater⟩ := ih (lockstep.handle lived)
      fun other h => passing other (List.mem_cons_of_mem _ h)
    rw [List.append_assoc] at hlater
    exact ⟨total, hlater⟩

end Lockstep

/-- The pieces of a resolver go in lockstep, in whatever state a life leads it. The generations of
the store and the cache are the number of accepted updates, and every entry of the cache is stamped
with it. A resolver that waits for its first configuration has none; one that is ready or stale has
one, and is nothing else while it has one unless it was retired or its source was given up. One
whose source was given up says why, as the one fatal event did that it has published. -/
theorem pieces_go_in_lockstep (capacity : Nat) (route : CacheKey → Nat)
    (evaluator : TargetingEvaluator) (calls : List ResolverCall) {life : ResolverLife}
    (lived : ResolverLife.idle.along calls = some life) :
    let answers := ((routed capacity route evaluator).run calls).1
    let resolver := ((routed capacity route evaluator).run calls).2
    let told := answers.flatMap ResolverCall.published
    resolver.cache.generation = resolver.store.generation ∧
      resolver.store.generation = calls.countP (·.isAccepted) ∧
      (∀ key entry, resolver.cache.Holds key entry →
        entry.generation = resolver.cache.generation) ∧
      (resolver.state = .initializing ∨ resolver.state = .notReady ∧ life ≠ .retired →
        resolver.store.snapshot = none) ∧
      (resolver.state = .ready ∨ resolver.state = .stale →
        resolver.store.snapshot.isSome = true) ∧
      (resolver.store.snapshot.isSome = true → life ≠ .retired → life ≠ .failed →
        resolver.state = .ready ∨ resolver.state = .stale) ∧
      (resolver.state = .fatalError → ∃ earlier message, resolver.fatal = some message ∧
        told = earlier ++ [.ofError .general message true] ∧
        ∀ event ∈ earlier, event.isFatal = false) := by
  intro answers resolver told
  have lockstep : resolver.Lockstep life (0 + calls.countP (·.isAccepted)) ([] ++ told) :=
    (Lockstep.routed capacity route evaluator).run lived
  rw [Nat.zero_add, List.nil_append] at lockstep
  have fits := lockstep.fits
  refine ⟨lockstep.cache_generation.trans lockstep.store_generation.symm,
    lockstep.store_generation,
    fun key entry held => (lockstep.stamped key entry held).trans lockstep.cache_generation.symm,
    fun waiting => ?_, fun serving => ?_, fun configured active hopeful => ?_, lockstep.explained⟩
  · have hempty : resolver.store.snapshot.isSome = false := lockstep.fits.unconfigured waiting
    exact Option.not_isSome_iff_eq_none.1 (Bool.eq_false_iff.1 hempty)
  · exact lockstep.fits.configured_of_serving serving
  · exact lockstep.fits.serving configured active hopeful

/-- Two updates come, the flag is resolved for two callers, and the source is doubted and then given
up. -/
def eventfulLife : List ResolverCall :=
  let update := fun variant : String => SyncPayload.mk
    (.full ("\x7b\"flags\":\x7b\"f\":\x7b\"state\":\"ENABLED\",\"variants\":\x7b\"" ++ variant ++
      "\":true\x7d,\"defaultVariant\":\"" ++ variant ++ "\"\x7d\x7d\x7d")) none ∅
  [.begin, .handle (.ready (update "a")), .resolve "f" .boolean false {},
    .handle (.changed (update "b")), .handle (.stale "quiet"), .resolve "f" .boolean false {},
    .handle (.error ⟨"gone", true⟩), .retire]

theorem pieces_go_in_lockstep_eventful :
    let start := routed 2 ResolutionCache.spread TargetingRules.evaluator
    ResolverLife.idle.along eventfulLife = some .retired ∧
      (start.run eventfulLife).2.store.generation = 2 ∧
      (start.run eventfulLife).2.cache.size = 1 ∧
      (∀ key entry, (start.run eventfulLife).2.cache.Holds key entry →
        entry.generation = (start.run eventfulLife).2.cache.generation) ∧
      ∃ earlier message, (start.run eventfulLife).2.fatal = some message ∧
        (start.run eventfulLife).1.flatMap ResolverCall.published =
          earlier ++ [.ofError .general message true] ∧
        ∀ event ∈ earlier, event.isFatal = false := by
  have lived : ResolverLife.idle.along eventfulLife = some .retired := by decide +kernel
  have twice : eventfulLife.countP (·.isAccepted) = 2 := by decide +kernel
  have pieces := pieces_go_in_lockstep 2 ResolutionCache.spread TargetingRules.evaluator
    eventfulLife lived
  dsimp only at pieces ⊢
  obtain ⟨-, counted, stamped, -, -, -, explained⟩ := pieces
  exact ⟨lived, counted.trans twice, by decide +kernel, stamped, explained (by decide +kernel)⟩

end Resolver

end FeatureFlags
