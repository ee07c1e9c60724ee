import FeatureFlags.Proofs.Service.Chronicle
import FeatureFlags.Channel.Memory

/-!
# Fatal failures

A resolver takes note of a fatal failure only if it is told of one (`isFatal_of_runEvents`), and the
driver of a service tells nothing more after that. So a service that has given up its source stays
as it is, whatever is asked of it, and says why (`fatal_is_final`).
-/

namespace FeatureFlags

open SyncDriver (Turn)

namespace Resolver

variable {resolver : Resolver}

/-- A resolver that takes note of a fatal failure was told of one. -/
theorem isFatal_of_handle {event : StorageEvent} (hoping : resolver.state ≠ .fatalError)
    (fatal : (resolver.handle event).2.state = .fatalError) : event.isFatal = true := by
  have handling := resolver.handle_handling event
  generalize resolver.handle event = result at handling fatal
  cases handling with
  | accepted carries reads => cases fatal
  | rejected carries fails => exact absurd fatal hoping
  | doubted doubt ready => cases fatal
  | ignored doubt unready => exact absurd fatal hoping
  | failed final => exact final

theorem isFatal_of_runEvents {events : List StorageEvent} (hoping : resolver.state ≠ .fatalError)
    (fatal : (resolver.runEvents events).2.state = .fatalError) :
    ∃ event ∈ events, event.isFatal = true := by
  induction events generalizing resolver with
  | nil => exact absurd fatal hoping
  | cons event events ih =>
    by_cases h : (resolver.handle event).2.state = .fatalError
    · exact ⟨event, List.mem_cons_self, isFatal_of_handle hoping h⟩
    · obtain ⟨later, hmem, hfatal⟩ := ih h fatal
      exact ⟨later, List.mem_cons_of_mem _ hmem, hfatal⟩

/-- A resolver that has given up its source says why it has nothing to resolve from. -/
theorem unavailable_of_fatal {message : String} (fatal : resolver.state = .fatalError)
    (why : resolver.fatal = some message) : resolver.unavailable = ⟨.general, message⟩ := by
  rw [unavailable, if_pos fatal, fatalMessage, why]
  rfl

theorem retire_of_fatal (fatal : resolver.state = .fatalError) : resolver.retire = resolver :=
  if_pos fatal

theorem fatal_of_retire (fatal : resolver.retire.state = .fatalError) :
    resolver.state = .fatalError := by
  unfold retire at fatal
  split at fatal
  · exact fatal
  · cases fatal

end Resolver

/-- What a resolver is told that takes note of a fatal failure ends with that failure. -/
theorem ServiceOptions.told_fatal {options : ServiceOptions} {turns : List Turn}
    (fatal : (options.told turns).2.state = .fatalError) :
    let run := (SyncDriver.ofPolicy options.policy).run turns
    run.2.phase = .terminated ∧ ∃ earlier message, run.1 = earlier ++ [.fatal message] ∧
      (∀ emission ∈ earlier, emission.event.isFatal = false) ∧
      ∃ published, (options.told turns).1 = published ++ [.ofError .general message true] ∧
        (options.told turns).2.fatal = some message := by
  intro run
  have hoping : ResolverState.initializing ≠ .fatalError := nofun
  obtain ⟨event, handled, hfatal⟩ := Resolver.isFatal_of_runEvents hoping fatal
  obtain ⟨emission, handed, rfl⟩ := List.mem_map.1 handled
  have running : (SyncDriver.ofPolicy options.policy).phase ≠ .terminated := nofun
  obtain ⟨ended, earlier, message, hrun, quiet⟩ := SyncDriver.fatal_run running handed hfatal
  refine ⟨ended, earlier, message, hrun, quiet, ?_⟩
  unfold told
  rw [hrun, List.map_append, Resolver.runEvents_append]
  exact ⟨_, rfl, rfl⟩

/-- Nothing is told after a fatal failure. -/
theorem ServiceOptions.told_append_of_fatal {options : ServiceOptions} {turns : List Turn}
    (fatal : (options.told turns).2.state = .fatalError) (more : List Turn) :
    options.told (turns ++ more) = options.told turns := by
  rw [told_append, SyncDriver.run_of_terminated (told_fatal fatal).1]
  exact Prod.ext (List.append_nil _) rfl

namespace ResolverService

variable {σ : Type} {options : ServiceOptions} {service : ResolverService σ}

theorem Chronicle.told_fatal {turns : List Turn} (chronicle : service.Chronicle options turns)
    (fatal : service.resolver.state = .fatalError) :
    (options.told turns).2.state = .fatalError := by
  have hstate := chronicle.agrees.state
  rw [fatal] at hstate
  split at hstate
  · exact hstate.symm
  · exact Resolver.fatal_of_retire hstate.symm

/-- A resolver that takes note of a fatal failure is, but for its cache, what it was told. -/
theorem Chronicle.agrees_of_fatal {turns : List Turn} (chronicle : service.Chronicle options turns)
    (fatal : (options.told turns).2.state = .fatalError) :
    service.resolver.Agree (options.told turns).2 := by
  have hagrees := chronicle.agrees
  rw [Resolver.retire_of_fatal fatal, ite_self] at hagrees
  exact hagrees

/-- A fatal failure is final, and is explained. Say that nobody cancels a driver before some moment.
Then either it goes on and has handed out nothing fatal, or there is a turn that ends its run: it
is cancelled, at that moment or after it, about which it says nothing, or it hands out a fatal
failure, after which nothing comes. When a service stands at a fatal failure, then its driver is
terminated after handing out that failure, of which the newest event tells. Whatever is asked of
the service later, it still stands there with the configuration and the events that it has, and
without a configuration each caller is told of the failure. -/
theorem fatal_is_final :
    (∀ (policy : RetryPolicy) (before after : List Turn),
      (∀ turn ∈ before, turn.2.isCancellation = false) →
        let start := SyncDriver.ofPolicy policy
        let run := start.run (before ++ after)
        run.2.phase ≠ .terminated ∧ (∀ emission ∈ run.1, emission.event.isFatal = false) ∨
        ∃ earlier turn later, before ++ after = earlier ++ turn :: later ∧
          start.Ends earlier turn ∧
          (before.length ≤ earlier.length ∧ turn.2.isCancellation = true ∧
              run.1 = (start.run earlier).1 ∨
            ∃ message, run.1 = (start.run earlier).1 ++ [.fatal message])) ∧
    ∀ {σ : Type} [Channel σ] (channel : σ) (options : ServiceOptions)
      (calls later : List (ServiceCall σ)),
      let service := (new channel options).performAll calls
      let after := service.performAll later
      service.resolver.state = .fatalError →
        ∃ turns earlier message,
          service.writer.driver = ((SyncDriver.ofPolicy options.policy).run turns).2 ∧
          service.writer.driver.phase = .terminated ∧
          ((SyncDriver.ofPolicy options.policy).run turns).1 = earlier ++ [.fatal message] ∧
          (∀ emission ∈ earlier, emission.event.isFatal = false) ∧
          service.subscribers.bus.recent.head? =
            some { ProviderEvent.ofError .general message true with
              sequence := UInt64.ofNat service.subscribers.bus.published } ∧
          after.resolver.state = .fatalError ∧
          after.resolver.store = service.resolver.store ∧
          after.subscribers.bus = service.subscribers.bus ∧
          (service.resolver.store.snapshot = none → ∀ flagKey kind fallback context,
            (after.resolver.resolve flagKey kind fallback context).1 =
              .ofError fallback ⟨.general, message⟩) := by
  refine ⟨fun policy before after uncancelled => ?_, fun {σ} _ channel options calls later => ?_⟩
  · intro start run
    have running : start.phase ≠ .terminated := nofun
    by_cases ended : run.2.phase = .terminated
    case neg => exact .inl ⟨ended, SyncDriver.not_fatal_run ended⟩
    obtain ⟨earlier, turn, last, hturns, ends, ending⟩ := SyncDriver.run_ending running ended
    refine .inr ⟨earlier, turn, last, hturns, ends, ending.imp_left fun ⟨cancelled, silent⟩ => ?_⟩
    refine ⟨Nat.le_of_not_lt fun early => ?_, cancelled, silent⟩
    have hturn : before[earlier.length]? = some turn := by
      rw [← List.getElem?_append_left early, hturns, List.getElem?_append_right (Nat.le_refl _),
        Nat.sub_self]
      rfl
    rw [uncancelled turn (List.mem_of_getElem? hturn)] at cancelled
    cases cancelled
  · intro service after fatal
    obtain ⟨turns, chronicle⟩ := exists_chronicle (leads_performAll (new channel options) calls)
    obtain ⟨more, hafter⟩ := continues_performAll service later turns chronicle
    have htold := chronicle.told_fatal fatal
    have hmore := options.told_append_of_fatal htold more
    obtain ⟨ended, earlier, message, hrun, quiet, published, hpublished, hfatal⟩ :=
      ServiceOptions.told_fatal htold
    have hservice := chronicle.agrees_of_fatal htold
    have hlater : after.resolver.Agree (options.told turns).2 := by
      rw [← hmore]
      exact hafter.agrees_of_fatal (hmore ▸ htold)
    have hbus := chronicle.bus_eq
    have hstate := hlater.state.trans htold
    refine ⟨turns, earlier, message, chronicle.driver_eq, ?_, hrun, quiet, ?_, hstate,
      hlater.store.trans hservice.store.symm, ?_, fun empty flagKey kind fallback context => ?_⟩
    · rw [chronicle.driver_eq]
      exact ended
    · rw [hbus, hpublished, EventBus.publishAll_append]
      refine EventBus.head?_recent_publish _ ?_ _
      rw [EventBus.ring_publishAll]
      exact EventBus.ring_new_pos _
    · rw [hafter.bus_eq, hmore, hbus]
    · have hempty : after.resolver.store.snapshot = none := by
        rw [hlater.store, ← hservice.store]
        exact empty
      rw [Resolver.resolve_of_empty hempty,
        Resolver.unavailable_of_fatal hstate (hlater.fatal.trans hfatal)]

/-- A source that is not available is given up at the first attempt if no retry is granted; neither
a shutdown nor another call changes that. A driver that is cancelled while it opens a session says
nothing. -/
theorem fatal_is_final_unavailable :
    let policy : RetryPolicy := { maxRetries := 0 }
    let start := SyncDriver.ofPolicy policy
    let before : List Turn := [(.zero, .waited)]
    let after : List Turn := [(.zero, .failed .cancelled), (.zero, .opened)]
    let service := (new ({ unavailable := true } : MemoryChannel) { policy }).performAll
      [.init (.ofMilliseconds 1)]
    let later := service.performAll [.shutdown, .init (.ofMilliseconds 1), .advance 1]
    (∃ earlier turn later, before ++ after = earlier ++ turn :: later ∧
      start.Ends earlier turn ∧ before.length ≤ earlier.length ∧ turn.2.isCancellation = true ∧
      (start.run (before ++ after)).1 = []) ∧
    service.resolver.state = .fatalError ∧ later.resolver.state = .fatalError ∧
      later.resolver.store = service.resolver.store ∧
      later.subscribers.bus = service.subscribers.bus ∧
      ∃ message, message = "gave up after 0 reconnect attempts: " ++
          "Sync source unavailable: memory source marked unavailable" ∧
        (later.resolver.resolve "f" .boolean true {}).1 = .ofError true ⟨.general, message⟩ := by
  intro policy start before after service later
  obtain ⟨hdriver, hservice⟩ := fatal_is_final
  refine ⟨?_, ?_⟩
  · obtain ⟨running, -⟩ | ⟨earlier, turn, rest, hturns, ends, ending⟩ :=
      hdriver policy before after (by decide)
    · exact absurd (by decide +kernel) running
    · obtain ⟨late, cancelled, -⟩ | ⟨message, reported⟩ := ending
      · exact ⟨earlier, turn, rest, hturns, ends, late, cancelled, by decide +kernel⟩
      · have hsilent : (start.run (before ++ after)).1 = [] := by decide +kernel
        rw [hsilent] at reported
        cases (List.append_eq_nil_iff.1 reported.symm).2
  · have fatal : service.resolver.state = .fatalError := by decide +kernel
    obtain ⟨-, -, message, -, -, -, -, newest, hstate, hstore, hbus, hresolve⟩ :=
      hservice ({ unavailable := true } : MemoryChannel) { policy } [.init (.ofMilliseconds 1)]
        [.shutdown, .init (.ofMilliseconds 1), .advance 1] fatal
    refine ⟨fatal, hstate, hstore, hbus, message, ?_, hresolve (by decide +kernel) _ _ _ _⟩
    have htext : service.subscribers.bus.recent.head?.bind (·.message) =
        some ("gave up after 0 reconnect attempts: " ++
          "Sync source unavailable: memory source marked unavailable") := by decide +kernel
    rw [newest] at htext
    exact Option.some.inj htext

end ResolverService

end FeatureFlags
