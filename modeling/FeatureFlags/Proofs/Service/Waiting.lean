import FeatureFlags.Channel.Memory
import FeatureFlags.Proofs.Outcomes
import FeatureFlags.Proofs.Resolver.Life
import FeatureFlags.Proofs.Service.Finality

/-!
# Waiting for the first configuration

Callers wait for the first configuration while the writer goes on, time goes by and somebody may
stop the service. What they are told is read off the resolver (`Chronicle.verdict`), whose pieces go
in lockstep with all that the driver has handed out (`lockstep_told`); so a service bears it out
(`BearsOut`), then and ever after (`BearsOut.lasts`). To wait changes nothing: a caller whose
deadline passes leaves the service as time alone would have left it (`init_of_timeout`). A service
is started once at most (`starts_le`), and rests for good after it was stopped (`Rests`).
-/

namespace FeatureFlags

open SyncDriver (Turn)

/-! ## What a resolver keeps -/

namespace Resolver

variable {resolver : Resolver}

/-- Nothing that a resolver is told takes its configuration away. -/
theorem isSome_handle (resolver : Resolver) (event : StorageEvent)
    (configured : resolver.store.snapshot.isSome = true) :
    (resolver.handle event).2.store.snapshot.isSome = true := by
  have handling := resolver.handle_handling event
  generalize resolver.handle event = result at handling ⊢
  cases handling with
  | accepted carries reads => rfl
  | rejected carries fails => exact configured
  | doubted doubt ready => exact configured
  | ignored doubt unready => exact configured
  | failed fatal => exact configured

/-- Nothing that a resolver is told makes it as if it had not begun. -/
theorem begun_handle (resolver : Resolver) (event : StorageEvent)
    (begun : resolver.state ≠ .notReady) : (resolver.handle event).2.state ≠ .notReady := by
  have handling := resolver.handle_handling event
  generalize resolver.handle event = result at handling ⊢
  cases handling with
  | accepted carries reads => exact fun h => nomatch h
  | rejected carries fails => exact begun
  | doubted doubt ready => exact fun h => nomatch h
  | ignored doubt unready => exact begun
  | failed fatal => exact fun h => nomatch h

theorem state_retire (resolver : Resolver) :
    resolver.retire.state = .notReady ∨ resolver.retire.state = .fatalError := by
  unfold retire
  split
  · rename_i fatal
    exact .inr fatal
  · exact .inl rfl

/-- To retire a resolver that is in the state of a retired one changes nothing. -/
theorem retire_eq_self (retired : resolver.state = .notReady ∨ resolver.state = .fatalError) :
    resolver.retire = resolver := by
  obtain ⟨store, cache, state, fatal, evaluator⟩ := resolver
  rcases retired with rfl | rfl <;> rfl

theorem store_retire (resolver : Resolver) : resolver.retire.store = resolver.store := by
  unfold retire
  split <;> rfl

theorem evaluator_retire (resolver : Resolver) : resolver.retire.evaluator = resolver.evaluator := by
  unfold retire
  split <;> rfl

/-- A resolver that has nothing to tell those who wait is waiting itself. -/
theorem state_of_undecided (undecided : resolver.verdict = none) :
    resolver.state = .initializing := by
  unfold verdict at undecided
  split at undecided
  · assumption
  · cases undecided
  · cases undecided
  · cases undecided
  · cases undecided

end Resolver

/-- The pieces of the resolver of a service go in lockstep, whatever its driver hands out. -/
theorem ServiceOptions.lockstep_told (options : ServiceOptions) (turns : List Turn) :
    ∃ life accepted, (options.told turns).2.Lockstep life accepted (options.told turns).1 := by
  have start : (Resolver.new options.cacheCapacity options.evaluator).begin.Lockstep .following 0
      [] := (Resolver.Lockstep.routed _ _ _).begin
  have running : (SyncDriver.ofPolicy options.policy).phase ≠ .terminated := nofun
  by_cases fatal : ∃ emission ∈ ((SyncDriver.ofPolicy options.policy).run turns).1,
    emission.event.isFatal = true
  · obtain ⟨emission, handed, hfatal⟩ := fatal
    obtain ⟨-, earlier, message, hrun, quiet⟩ := SyncDriver.fatal_run running handed hfatal
    have passing : ∀ event ∈ earlier.map (·.event), event.isFatal = false :=
      List.forall_mem_map.2 quiet
    obtain ⟨accepted, lockstep⟩ := start.runEvents passing
    have lived : ResolverLife.next .following (.handle (Emission.fatal message).event) =
      some .failed := rfl
    unfold told
    rw [hrun, List.map_append, Resolver.runEvents_append]
    exact ⟨.failed, _, lockstep.handle lived⟩
  · have passing : ∀ event ∈ ((SyncDriver.ofPolicy options.policy).run turns).1.map (·.event),
        event.isFatal = false := by
      refine List.forall_mem_map.2 fun emission handed => ?_
      exact Bool.eq_false_iff.2 fun hfatal => fatal ⟨emission, handed, hfatal⟩
    obtain ⟨accepted, lockstep⟩ := start.runEvents passing
    exact ⟨.following, accepted, lockstep⟩

/-! ## What a caller is told -/

namespace ResolverService

variable {σ : Type} {options : ServiceOptions} {service : ResolverService σ} {turns : List Turn}
  {timeout : Duration} {outcome : Except ResolverError Unit}

/-- A service bears out what a caller is told who waited for its first configuration: there is one,
or the one fatal event that was published says why there will be none, or it is stopped, or nothing
came in time. -/
def BearsOut (options : ServiceOptions) (service : ResolverService σ) (timeout : Duration) :
    Except ResolverError Unit → Prop
  | .ok () => service.resolver.store.snapshot.isSome = true
  | .error (.fatal message) =>
    service.resolver.state = .fatalError ∧ service.resolver.fatal = some message ∧
      ∃ earlier, (∀ event ∈ earlier, event.isFatal = false) ∧
        service.subscribers.bus = (EventBus.new options.eventCapacity).publishAll
          (earlier ++ [.ofError .general message true])
  | .error (.initTimeout deadline) => deadline = timeout
  | .error .shutdown => service.lifecycle = .stopped
  | .error _ => False

namespace Chronicle

/-- The resolver of a service that was stopped, or that never ran, is in the state of a retired
one. -/
theorem retired (chronicle : service.Chronicle options turns)
    (still : service.lifecycle ≠ .running) :
    service.resolver.state = .notReady ∨ service.resolver.state = .fatalError := by
  rw [chronicle.agrees.state, if_neg still]
  exact Resolver.state_retire _

/-- The resolver of a running service has begun. -/
theorem begun (chronicle : service.Chronicle options turns)
    (running : service.lifecycle = .running) : service.resolver.state ≠ .notReady := by
  rw [chronicle.agrees.state, if_pos running]
  exact Resolver.runEvents_induction Resolver.begun_handle _ nofun

theorem store_eq (chronicle : service.Chronicle options turns) :
    service.resolver.store = (options.told turns).2.store := by
  rw [chronicle.agrees.store]
  split
  · rfl
  · exact Resolver.store_retire _

/-- A service that says that it is ready or stale is running, and has a configuration. -/
theorem configured (chronicle : service.Chronicle options turns)
    (serving : service.resolver.state = .ready ∨ service.resolver.state = .stale) :
    service.resolver.store.snapshot.isSome = true := by
  have running : service.lifecycle = .running := by
    refine Decidable.byContradiction fun still => ?_
    rcases chronicle.retired still with h | h <;> rw [h] at serving <;> simp at serving
  have hstate := chronicle.agrees.state
  rw [if_pos running] at hstate
  obtain ⟨life, accepted, lockstep⟩ := options.lockstep_told turns
  rw [hstate] at serving
  rw [chronicle.store_eq]
  exact lockstep.fits.configured_of_serving serving

/-- A service whose source was given up says why, as the newest of its events does. -/
theorem fatal (chronicle : service.Chronicle options turns)
    (fatal : service.resolver.state = .fatalError) :
    service.BearsOut options timeout (.error (.fatal service.resolver.fatalMessage)) := by
  have hstate : (options.told turns).2.state = .fatalError := chronicle.told_fatal fatal
  have hagrees := chronicle.agrees_of_fatal hstate
  obtain ⟨life, accepted, lockstep⟩ := options.lockstep_told turns
  obtain ⟨earlier, message, hfatal, htold, quiet⟩ := lockstep.explained hstate
  have hmessage : service.resolver.fatal = some message := hagrees.fatal.trans hfatal
  have htext : service.resolver.fatalMessage = message := by
    rw [Resolver.fatalMessage, hmessage]
    rfl
  rw [htext]
  refine ⟨fatal, hmessage, earlier, quiet, ?_⟩
  rw [chronicle.bus_eq, htold]

/-- What a resolver tells those who wait is borne out by its service, if that has begun. -/
theorem verdict (chronicle : service.Chronicle options turns)
    (begun : service.lifecycle ≠ .idle) (h : service.resolver.verdict = some outcome) :
    service.BearsOut options timeout outcome := by
  unfold Resolver.verdict at h
  split at h
  · cases h
  · rename_i ready
    cases h
    exact chronicle.configured (.inl ready)
  · rename_i stale
    cases h
    exact chronicle.configured (.inr stale)
  · rename_i fatal
    cases h
    exact chronicle.fatal fatal
  · rename_i unready
    cases h
    show service.lifecycle = .stopped
    cases hlifecycle : service.lifecycle with
    | idle => exact absurd hlifecycle begun
    | running => exact absurd unready (chronicle.begun hlifecycle)
    | stopped => rfl

/-- A caller who was still waiting is told what the service bears out. -/
theorem check (chronicle : service.Chronicle options turns) (begun : service.lifecycle ≠ .idle)
    {call : InitCall} (waiting : call.outcome = none)
    (h : (call.check service.resolver service.now).outcome = some outcome) :
    service.BearsOut options call.timeout outcome := by
  rw [InitCall.outcome_check, waiting, Option.none_or] at h
  cases hverdict : service.resolver.verdict with
  | some verdict =>
    rw [hverdict, Option.some_or] at h
    cases h
    exact chronicle.verdict begun hverdict
  | none =>
    rw [hverdict, Option.none_or] at h
    split at h
    · cases h
      exact rfl
    · cases h

end Chronicle

/-- What comes later bears out what was borne out before: a service keeps its configuration, and
neither a fatal failure nor a shutdown is ever undone. -/
theorem BearsOut.lasts (h : service.BearsOut options timeout outcome) {later : ResolverService σ}
    {more : List Turn} (chronicle : service.Chronicle options turns)
    (continued : later.Chronicle options (turns ++ more))
    (final : service.lifecycle = .stopped → later.lifecycle = .stopped) :
    later.BearsOut options timeout outcome := by
  match outcome with
  | .ok () =>
    have configured : (options.told turns).2.store.snapshot.isSome = true := by
      rw [← chronicle.store_eq]
      exact h
    show later.resolver.store.snapshot.isSome = true
    rw [continued.store_eq, options.told_append]
    exact Resolver.runEvents_induction (P := fun resolver => resolver.store.snapshot.isSome = true)
      Resolver.isSome_handle _ configured
  | .error (.fatal message) =>
    obtain ⟨fatal, hmessage, earlier, quiet, hbus⟩ := h
    have htold := chronicle.told_fatal fatal
    have hmore := options.told_append_of_fatal htold more
    have hservice := chronicle.agrees_of_fatal htold
    have hlater := continued.agrees_of_fatal (hmore ▸ htold)
    rw [hmore] at hlater
    refine ⟨hlater.state.trans htold, ?_, earlier, quiet, ?_⟩
    · rw [hlater.fatal, ← hservice.fatal]
      exact hmessage
    · rw [continued.bus_eq, hmore, ← chronicle.bus_eq]
      exact hbus
  | .error (.initTimeout deadline) => exact h
  | .error .shutdown => exact final h
  | .error (.config error) => exact h.elim
  | .error (.sync error) => exact h.elim

/-! ## The lifecycle of a service -/

/-- After a call began to wait, the service has been started. -/
theorem lifecycle_call (service : ResolverService σ) (timeout : Duration) :
    (service.call timeout).2.lifecycle ≠ .idle := by
  unfold call
  split
  · rename_i stopped
    rw [stopped]
    exact nofun
  · rename_i running
    rw [running]
    exact nofun
  · exact nofun

/-- A caller who finds the service stopped is told so. Any other caller looks at once whether the
wait is over. -/
theorem call_fst (service : ResolverService σ) (timeout : Duration) :
    service.lifecycle = .stopped ∧
        (service.call timeout).1.outcome = some (.error .shutdown) ∨
      (service.call timeout).1 = (InitCall.ofTimeout timeout service.now).check
        (service.call timeout).2.resolver (service.call timeout).2.now := by
  unfold call
  split
  · rename_i stopped
    exact .inl ⟨stopped, rfl⟩
  · exact .inr rfl
  · exact .inr rfl

theorem now_call (service : ResolverService σ) (timeout : Duration) :
    (service.call timeout).2.now = service.now := by
  unfold call
  split <;> rfl

variable [Channel σ]

/-- A move that changes the lifecycle starts a service that is idle, or stops it. -/
theorem lifecycle_play (service : ResolverService σ) (move : ServiceMove σ) :
    (service.play move).lifecycle = service.lifecycle ∨
      service.lifecycle = .idle ∧ (service.play move).lifecycle = .running ∨
      (service.play move).lifecycle = .stopped := by
  have moved := service.moved_play move
  generalize service.play move = later at moved ⊢
  cases moved with
  | aside driver_eq resolver_eq bus_eq lifecycle_eq => exact .inl lifecycle_eq
  | resolved flagKey kind fallback context => exact .inl rfl
  | started idle => exact .inr (.inl ⟨idle, rfl⟩)
  | written running => exact .inl rfl
  | retired => exact .inr (.inr rfl)

/-- A service that was stopped is never started again. -/
theorem stopped_playAll (moves : List (ServiceMove σ)) (stopped : service.lifecycle = .stopped) :
    (service.playAll moves).lifecycle = .stopped := by
  induction moves generalizing service with
  | nil => exact stopped
  | cons move moves ih =>
    refine ih ?_
    rcases service.lifecycle_play move with h | ⟨idle, -⟩ | h
    · exact h.trans stopped
    · rw [stopped] at idle
      cases idle
    · exact h

/-- How often moves start the writer of a service. -/
def starts (service : ResolverService σ) : List (ServiceMove σ) → Nat
  | [] => 0
  | move :: moves =>
    let next := service.play move
    (if service.lifecycle = .idle ∧ next.lifecycle = .running then 1 else 0) + next.starts moves

/-- Only an idle service is started, and only once. -/
theorem starts_le (service : ResolverService σ) (moves : List (ServiceMove σ)) :
    service.starts moves ≤ if service.lifecycle = .idle then 1 else 0 := by
  induction moves generalizing service with
  | nil => exact Nat.zero_le _
  | cons move moves ih =>
    have hlater := ih (service.play move)
    unfold starts
    dsimp only
    rcases service.lifecycle_play move with same | ⟨idle, running⟩ | stopped
    · have unstarted : ¬ (service.lifecycle = .idle ∧ service.lifecycle = .running) := by
        rintro ⟨idle, running⟩
        rw [idle] at running
        cases running
      rw [same] at hlater ⊢
      rwa [if_neg unstarted, Nat.zero_add]
    · rw [running] at hlater ⊢
      rw [if_pos ⟨idle, rfl⟩, if_pos idle]
      exact Nat.add_le_add_left hlater 1
    · rw [stopped] at hlater ⊢
      rw [if_neg (fun h => nomatch h.2), Nat.zero_add]
      exact Nat.le_trans hlater (Nat.zero_le _)

/-! ## Callers -/

/-- A service that has begun never is idle again. -/
theorem begun_playAll (moves : List (ServiceMove σ)) (begun : service.lifecycle ≠ .idle) :
    (service.playAll moves).lifecycle ≠ .idle := by
  induction moves generalizing service with
  | nil => exact begun
  | cons move moves ih =>
    refine ih ?_
    rcases service.lifecycle_play move with h | ⟨idle, -⟩ | h
    · rw [h]
      exact begun
    · exact absurd idle begun
    · rw [h]
      exact nofun

/-- What a caller is told at some later moment is borne out by the service at that moment. -/
theorem bearsOut_of_check (chronicle : service.Chronicle options turns)
    (moves : List (ServiceMove σ)) :
    let caller := (service.call timeout).1
    let later := (service.call timeout).2.playAll moves
    (caller.check later.resolver later.now).outcome = some outcome →
      later.BearsOut options timeout outcome := by
  intro caller later h
  obtain ⟨begun, hbegun⟩ := continues_play service (.call timeout) turns chronicle
  obtain ⟨more, hlater⟩ := continues_playAll _ moves _ hbegun
  have started : (service.call timeout).2.lifecycle ≠ .idle := service.lifecycle_call timeout
  have final : (service.call timeout).2.lifecycle = .stopped → later.lifecycle = .stopped :=
    stopped_playAll moves
  rcases service.call_fst timeout with ⟨stopped, finished⟩ | looked
  · rw [InitCall.outcome_check_of_some finished] at h
    cases h
    refine final ?_
    unfold call
    rw [stopped]
    exact stopped
  · cases hcaller : caller.outcome with
    | none =>
      have htimeout : caller.timeout = timeout := by
        rw [show caller = _ from looked]
        rfl
      rw [← htimeout]
      exact hlater.check (begun_playAll moves started) hcaller h
    | some first =>
      rw [InitCall.outcome_check_of_some hcaller] at h
      cases h
      rw [show caller = _ from looked] at hcaller
      have hfirst := hbegun.check started rfl hcaller
      exact hfirst.lasts hbegun hlater final

theorem now_settle (service : ResolverService σ) : service.settle.now = service.now := by
  unfold settle
  dsimp only
  split <;> rfl

/-- Whoever waits until a call is over is told what the call finds at the end. -/
theorem check_await_go (left : Nat) (service : ResolverService σ) {call : InitCall}
    (enough : call.deadline - service.now < left) :
    let result := await.go left service call
    (call.check result.2.resolver result.2.now).outcome = some result.1 := by
  induction left generalizing service with
  | zero => exact absurd enough (Nat.not_lt_zero _)
  | succ left ih =>
    unfold await.go
    cases hover : call.outcome with
    | some outcome => exact InitCall.outcome_check_of_some hover _ _
    | none =>
      dsimp only
      cases hnow : (call.check service.settle.resolver service.settle.now).outcome with
      | some outcome => exact hnow
      | none =>
        have early := InitCall.early_of_check hnow
        have ahead := service.settle.lt_nextMoment early
        rw [InitCall.check_eq_self hnow]
        refine ih _ ?_
        rw [now_settle] at early ahead
        dsimp only
        omega

theorem check_init (service : ResolverService σ) (timeout : Duration) :
    ((service.call timeout).1.check (service.init timeout).2.resolver
      (service.init timeout).2.now).outcome = some (service.init timeout).1 :=
  check_await_go _ _ (Nat.lt_succ_self _)

/-- What a caller of `init` is told is borne out by the service. -/
theorem bearsOut_init (chronicle : service.Chronicle options turns) (timeout : Duration) :
    (service.init timeout).2.BearsOut options timeout (service.init timeout).1 := by
  obtain ⟨more, hmore⟩ := leads_await (service.call timeout).2 (service.call timeout).1
  have hinit : (service.call timeout).2.playAll more = (service.init timeout).2 := hmore
  have told := check_init service timeout
  rw [← hinit] at told ⊢
  exact bearsOut_of_check chronicle more told

/-- Whoever waits in vain leaves the service as it would be without a call. -/
theorem await_go_of_timeout (left left' : Nat) (service : ResolverService σ) {call : InitCall}
    {deadline : Duration} (waiting : call.outcome = none)
    (enough : call.deadline - service.now < left) (enough' : call.deadline - service.now ≤ left')
    (h : (await.go left service call).1 = .error (.initTimeout deadline)) :
    (await.go left service call).2 = advance.go call.deadline left' service ∧
      (await.go left service call).2.resolver.verdict = none := by
  induction left generalizing service left' with
  | zero => exact absurd enough (Nat.not_lt_zero _)
  | succ left ih =>
    unfold await.go at h ⊢
    rw [waiting] at h ⊢
    dsimp only at h ⊢
    cases hnow : (call.check service.settle.resolver service.settle.now).outcome with
    | some outcome =>
      rw [hnow] at h
      cases h
      obtain ⟨undecided, late⟩ := InitCall.late_of_check waiting hnow
      refine ⟨?_, undecided⟩
      cases left' with
      | zero => rfl
      | succ left' =>
        unfold advance.go
        dsimp only
        rw [if_pos late]
    | none =>
      have early := InitCall.early_of_check hnow
      have ahead := service.settle.lt_nextMoment early
      rw [hnow, InitCall.check_eq_self hnow] at h
      rw [InitCall.check_eq_self hnow]
      have hsettle := service.now_settle
      obtain ⟨left', rfl⟩ : ∃ n, left' = n + 1 := ⟨left' - 1, by omega⟩
      have hadvance : advance.go call.deadline (left' + 1) service =
          advance.go call.deadline left'
            { service.settle with now := service.settle.nextMoment call.deadline } := by
        rw [advance.go]
        exact if_neg (Nat.not_le.2 early)
      rw [hadvance]
      refine ih left' _ ?_ ?_ h
      · dsimp only
        omega
      · dsimp only
        omega

/-- A deadline that passes leaves the service as it would be if nobody had waited, but for its
having been started. -/
theorem init_of_timeout {deadline : Duration}
    (h : (service.init timeout).1 = .error (.initTimeout deadline)) :
    let begun := (service.call timeout).2
    let wait := timeout.timerMilliseconds
    (service.init timeout).2.resolver.verdict = none ∧
      (service.init timeout).2 = if wait = 0 then begun else begun.advance wait := by
  intro begun wait
  have hnow : begun.now = service.now := service.now_call timeout
  rcases service.call_fst timeout with ⟨-, finished⟩ | looked
  · have told := check_init service timeout
    rw [InitCall.outcome_check_of_some finished, h] at told
    cases told
  have hdeadline : (service.call timeout).1.deadline = service.now + wait := by
    rw [looked]
    rfl
  cases hcaller : (service.call timeout).1.outcome with
  | some first =>
    have hinit : service.init timeout = (first, begun) := by
      show await.go (_ + 1) begun (service.call timeout).1 = _
      unfold await.go
      rw [hcaller]
    rw [hinit] at h ⊢
    cases h
    rw [looked] at hcaller
    obtain ⟨undecided, late⟩ := InitCall.late_of_check rfl hcaller
    have hlate : service.now + wait ≤ begun.now := late
    rw [if_pos (by omega)]
    exact ⟨undecided, rfl⟩
  | none =>
    have early : begun.now < service.now + wait := by
      rw [looked] at hcaller
      exact InitCall.early_of_check hcaller
    obtain ⟨hadvance, undecided⟩ := await_go_of_timeout _ wait begun hcaller
      (Nat.lt_succ_self _) (by omega) h
    refine ⟨undecided, hadvance.trans ?_⟩
    rw [if_neg (by omega), hdeadline, ← hnow]
    rfl

/-! ## After a shutdown -/

/-- All that moves change in a stopped service is the cache of its resolver, its clock, its calls,
its channel and its readers. -/
structure Rests (service later : ResolverService σ) : Prop where
  stopped : later.lifecycle = .stopped
  agrees : later.resolver.Agree service.resolver
  bus_eq : later.subscribers.bus = service.subscribers.bus

theorem rests_play (stopped : service.lifecycle = .stopped)
    (retired : service.resolver.state = .notReady ∨ service.resolver.state = .fatalError)
    (move : ServiceMove σ) : service.Rests (service.play move) := by
  have moved := service.moved_play move
  generalize service.play move = later at moved ⊢
  cases moved with
  | aside driver_eq resolver_eq bus_eq lifecycle_eq =>
    exact ⟨lifecycle_eq.trans stopped, resolver_eq ▸ .refl _, bus_eq⟩
  | resolved flagKey kind fallback context =>
    obtain ⟨cache, hresolve, -⟩ := service.resolver.resolve_snd flagKey kind fallback context
    rw [hresolve]
    exact ⟨stopped, ⟨rfl, rfl, rfl, rfl⟩, rfl⟩
  | started idle => exact nomatch stopped.symm.trans idle
  | written running => exact nomatch stopped.symm.trans running
  | retired =>
    rw [Resolver.retire_eq_self retired]
    exact ⟨rfl, .refl _, rfl⟩

theorem rests_playAll (stopped : service.lifecycle = .stopped)
    (retired : service.resolver.state = .notReady ∨ service.resolver.state = .fatalError)
    (moves : List (ServiceMove σ)) : service.Rests (service.playAll moves) := by
  induction moves generalizing service with
  | nil => exact ⟨stopped, .refl _, rfl⟩
  | cons move moves ih =>
    have hmove := rests_play stopped retired move
    have hlater := ih hmove.stopped (hmove.agrees.state ▸ retired)
    exact ⟨hlater.stopped, hlater.agrees.trans hmove.agrees, hlater.bus_eq.trans hmove.bus_eq⟩

/-- To stop a stopped service changes nothing. -/
theorem shutdown_of_stopped (stopped : service.lifecycle = .stopped)
    (retired : service.resolver.state = .notReady ∨ service.resolver.state = .fatalError) :
    service.shutdown = service := by
  have idle : service.lifecycle ≠ .running := by
    rw [stopped]
    exact nofun
  unfold shutdown
  rw [if_neg idle]
  dsimp only
  rw [Resolver.retire_eq_self retired, ← stopped]

/-- Nobody has to wait for a stopped service. -/
theorem init_of_stopped (stopped : service.lifecycle = .stopped) (timeout : Duration) :
    service.init timeout = (.error .shutdown, service) := by
  have hcall : service.call timeout = ({ InitCall.ofTimeout timeout service.now with
      outcome := some (.error .shutdown) }, service) := by
    unfold call
    rw [stopped]
  unfold init await
  rw [hcall]
  dsimp only
  rw [await.go]

/-- A shutdown publishes nothing, and leaves the resolver as it is but for its state. -/
theorem shutdown_eq (service : ResolverService σ) :
    service.shutdown.lifecycle = .stopped ∧ service.shutdown.resolver = service.resolver.retire ∧
      service.shutdown.subscribers.bus = service.subscribers.bus := by
  unfold shutdown
  dsimp only
  split
  · rename_i running
    obtain ⟨hresolver, hbus, -⟩ := settle_cancel running
    exact ⟨rfl, congrArg Resolver.retire hresolver, hbus⟩
  · exact ⟨rfl, rfl, rfl⟩

theorem traced_play (traced : service.resolver.Traced) (move : ServiceMove σ) :
    (service.play move).resolver.Traced := by
  have moved := service.moved_play move
  generalize service.play move = later at moved ⊢
  cases moved with
  | aside driver_eq resolver_eq bus_eq lifecycle_eq => exact resolver_eq ▸ traced
  | resolved flagKey kind fallback context => exact traced.resolve flagKey kind fallback context
  | started idle => exact traced
  | written running =>
    show (((service.writer.attend (.poll service.now)).1.bind (·.emission)).elim
      (service.resolver, service.subscribers)
      (take (service.resolver, service.subscribers))).1.Traced
    cases (service.writer.attend (.poll service.now)).1.bind (·.emission) with
    | none => exact traced
    | some emission => exact traced.handle emission.event
  | retired => exact traced.retire

theorem traced_playAll (moves : List (ServiceMove σ)) (traced : service.resolver.Traced) :
    (service.playAll moves).resolver.Traced := by
  induction moves generalizing service with
  | nil => exact traced
  | cons move moves ih => exact ih (traced_play traced move)

/-- Waiting and stopping, whatever else goes on. The writer of a service is started once at most,
and one run of its driver tells all that was ever published. Whoever began to wait for the first
configuration and looks at a later moment whether the wait is over is told what the service bears
out at that moment; so is a caller of `init`, and one who waited in vain leaves the service
waiting as if only time had gone by. After a shutdown the configuration stays as it was, nothing is
published any more, callers are sent away, another shutdown changes nothing, and every answer is
computed from the last configuration, for somebody with the fingerprint of the caller. -/
theorem waiting_and_stopping (channel : σ) (options : ServiceOptions)
    (moves : List (ServiceMove σ)) :
    let service := (new channel options).playAll moves
    ((new channel options).starts moves ≤ 1 ∧ ∃ turns,
        service.writer.driver = ((SyncDriver.ofPolicy options.policy).run turns).2 ∧
        service.subscribers.bus =
          (EventBus.new options.eventCapacity).publishAll (options.told turns).1) ∧
      (∀ timeout more outcome,
        let caller := (service.call timeout).1
        let later := (service.call timeout).2.playAll more
        (caller.check later.resolver later.now).outcome = some outcome →
          later.BearsOut options timeout outcome) ∧
      (∀ timeout,
        let result := service.init timeout
        let begun := (service.call timeout).2
        let wait := timeout.timerMilliseconds
        result.2.BearsOut options timeout result.1 ∧
          ∀ deadline, result.1 = .error (.initTimeout deadline) →
            result.2.lifecycle = .running ∧ result.2.resolver.state = .initializing ∧
              result.2 = if wait = 0 then begun else begun.advance wait) ∧
      (service.lifecycle = .stopped → service.shutdown = service) ∧
      ∀ more,
        let later := service.shutdown.playAll more
        later.shutdown = later ∧ (∀ timeout, later.init timeout = (.error .shutdown, later)) ∧
          later.resolver.store = service.resolver.store ∧
          later.subscribers.bus = service.subscribers.bus ∧
          ∀ snapshot, service.resolver.store.snapshot = some snapshot →
            ∀ flagKey kind fallback context, ∃ asker : EvaluationContext,
              asker.fingerprint = context.fingerprint ∧
                (later.resolver.resolve flagKey kind fallback context).1 =
                  (service.resolver.compute snapshot flagKey kind fallback asker).1 := by
  intro service
  have leads : (new channel options).Leads service := ⟨moves, rfl⟩
  obtain ⟨turns, chronicle⟩ := exists_chronicle leads
  refine ⟨⟨?_, turns, chronicle.driver_eq, chronicle.bus_eq⟩, fun timeout more outcome => ?_,
    fun timeout => ?_, fun stopped => ?_, fun more => ?_⟩
  · exact (new channel options).starts_le moves
  · exact bearsOut_of_check chronicle more
  · refine ⟨bearsOut_init chronicle timeout, fun deadline late => ?_⟩
    obtain ⟨undecided, hlater⟩ := init_of_timeout late
    have waiting := Resolver.state_of_undecided undecided
    obtain ⟨_, continued⟩ := continues_performAll service [.init timeout] turns chronicle
    refine ⟨?_, waiting, hlater⟩
    refine Decidable.byContradiction fun still => ?_
    rcases continued.retired still with h | h
    · exact nomatch waiting.symm.trans h
    · exact nomatch waiting.symm.trans h
  · exact shutdown_of_stopped stopped (chronicle.retired (stopped ▸ nofun))
  · intro later
    obtain ⟨hstopped, hresolver, hbus⟩ := shutdown_eq service
    have retired := service.resolver.state_retire
    rw [← hresolver] at retired
    have rests : service.shutdown.Rests later := rests_playAll hstopped retired more
    have hstore : later.resolver.store = service.resolver.store := by
      rw [rests.agrees.store, hresolver, Resolver.store_retire]
    have hevaluator : later.resolver.evaluator = service.resolver.evaluator := by
      rw [rests.agrees.evaluator, hresolver, Resolver.evaluator_retire]
    have traced : later.resolver.Traced := by
      obtain ⟨stop, hstop⟩ := leads_shutdown service
      have hlater : later = (new channel options).playAll (moves ++ stop ++ more) := by
        rw [playAll_append, playAll_append, hstop]
      rw [hlater]
      exact traced_playAll _ fun _ _ _ hs => nomatch hs
    refine ⟨shutdown_of_stopped rests.stopped (rests.agrees.state ▸ retired),
      init_of_stopped rests.stopped, hstore, rests.bus_eq.trans hbus,
      fun snapshot hsnapshot flagKey kind fallback context => ?_⟩
    obtain ⟨asker, hasker, hanswer⟩ :=
      traced.resolve_fst (hstore ▸ hsnapshot) flagKey kind fallback context
    refine ⟨asker, hasker, hanswer.trans ?_⟩
    unfold Resolver.compute
    rw [hevaluator]

/-- The writer opens a session and waits; some time later the first configuration arrives. -/
def lateUpdate : List (ServiceMove MemoryChannel) :=
  let document := "\x7b\"flags\":\x7b\"f\":\x7b\"state\":\"ENABLED\",\"variants\":\x7b\"on\":true\x7d," ++
    "\"defaultVariant\":\"on\"\x7d\x7d\x7d"
  [.write, .write, .write, .elapse 3, .modifyChannel (·.pushFull document), .write]

/-- A caller waits for a millisecond in vain; one who waits longer is told of the configuration that
arrives, which is still served after a shutdown. -/
theorem waiting_and_stopping_late_update :
    let start := new ({} : MemoryChannel) {}
    let later := (start.call (.ofMilliseconds 5)).2.playAll lateUpdate
    (start.init (.ofMilliseconds 1)).1 = .error (.initTimeout (.ofMilliseconds 1)) ∧
      (start.init (.ofMilliseconds 1)).2 = (start.call (.ofMilliseconds 1)).2.advance 1 ∧
      later.resolver.store.snapshot.isSome = true ∧
      later.shutdown.init (.ofMilliseconds 5) = (.error .shutdown, later.shutdown) ∧
      (later.shutdown.resolver.resolve "f" .boolean false {}).1.variant = some "on" := by
  have tells := (waiting_and_stopping ({} : MemoryChannel) {} []).2.1 (.ofMilliseconds 5) lateUpdate
    (.ok ())
  have waits := (waiting_and_stopping ({} : MemoryChannel) {} []).2.2.1 (.ofMilliseconds 1)
  have rests := (waiting_and_stopping ({} : MemoryChannel) {}
    (.call (.ofMilliseconds 5) :: lateUpdate)).2.2.2.2 []
  dsimp only [playAll, List.foldl_nil, List.foldl_cons, play] at tells waits rests ⊢
  refine ⟨by decide +kernel, ?_, tells (by decide +kernel), rests.2.1 _, by decide +kernel⟩
  exact (waits.2 (.ofMilliseconds 1) (by decide +kernel)).2.2.trans (if_neg (by decide))

end ResolverService

end FeatureFlags
