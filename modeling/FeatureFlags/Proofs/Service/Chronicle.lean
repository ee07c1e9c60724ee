import FeatureFlags.Proofs.Bus.Numbers
import FeatureFlags.Proofs.Resolver.Announcements
import FeatureFlags.Proofs.Service.Moves

/-!
# The chronicle of a service

Whatever happens to a service, one run of its driver tells all that has come of it. What the driver
handed out in that run is what the resolver has handled; what the resolver gave for it is what the
subscribers were told (`Chronicle`). Each move lets the run go on and changes nothing else
(`continues_play`), so every service has a chronicle (`exists_chronicle`).
-/

namespace FeatureFlags

open SyncDriver (Turn)

theorem Subscribers.foldl_publish (subscribers : Subscribers) (events : List ProviderEvent) :
    events.foldl Subscribers.publish subscribers =
      { subscribers with bus := subscribers.bus.publishAll events } := by
  induction events generalizing subscribers with
  | nil => rfl
  | cons event events ih => exact ih (subscribers.publish event)

theorem Resolver.retire_retire (resolver : Resolver) :
    resolver.retire.retire = resolver.retire := by
  unfold Resolver.retire
  split <;> rfl

/-- All that the driver of a service hands out in a run, handled by a resolver that has begun to
wait for its first configuration. -/
def ServiceOptions.told (options : ServiceOptions) (turns : List Turn) :
    List ProviderEvent × Resolver :=
  (Resolver.new options.cacheCapacity options.evaluator).begin.runEvents
    (((SyncDriver.ofPolicy options.policy).run turns).1.map (·.event))

theorem ServiceOptions.told_append (options : ServiceOptions) (turns more : List Turn) :
    options.told (turns ++ more) =
      let events := (((SyncDriver.ofPolicy options.policy).run turns).2.run more).1.map (·.event)
      ((options.told turns).1 ++ ((options.told turns).2.runEvents events).1,
        ((options.told turns).2.runEvents events).2) := by
  unfold told
  rw [SyncDriver.run_append, List.map_append, Resolver.runEvents_append]

namespace ResolverService

variable {σ : Type} {options : ServiceOptions} {service : ResolverService σ}

/-- What the writer hands out is handled in order, and what the resolver gives for it is
published. -/
theorem foldl_take (emissions : List Emission) (resolver : Resolver) (subscribers : Subscribers) :
    emissions.foldl take (resolver, subscribers) =
      ((resolver.runEvents (emissions.map (·.event))).2,
        { subscribers with
          bus := subscribers.bus.publishAll
            (resolver.runEvents (emissions.map (·.event))).1 }) := by
  induction emissions generalizing resolver subscribers with
  | nil => rfl
  | cons emission emissions ih =>
    refine (ih _ _).trans ?_
    rw [Subscribers.foldl_publish, ← EventBus.publishAll_append]
    rfl

/-- A run of the driver of a service that tells all that has come of it. -/
structure Chronicle (options : ServiceOptions) (turns : List Turn) (service : ResolverService σ) :
    Prop where
  driver_eq : service.writer.driver = ((SyncDriver.ofPolicy options.policy).run turns).2
  agrees : service.resolver.Agree
    (if service.lifecycle = .running then (options.told turns).2 else (options.told turns).2.retire)
  bus_eq : service.subscribers.bus =
    (EventBus.new options.eventCapacity).publishAll (options.told turns).1
  unstarted : service.lifecycle = .idle → turns = []

/-- The run goes on as long as the writer does. -/
theorem Chronicle.extend {turns more : List Turn} (chronicle : service.Chronicle options turns)
    (running : service.lifecycle = .running) {later : ResolverService σ}
    (still : later.lifecycle = .running)
    (driver_eq : later.writer.driver = (service.writer.driver.run more).2)
    (resolver_eq : later.resolver = ((service.writer.driver.run more).1.foldl take
      (service.resolver, service.subscribers)).1)
    (bus_eq : later.subscribers.bus = ((service.writer.driver.run more).1.foldl take
      (service.resolver, service.subscribers)).2.bus) :
    later.Chronicle options (turns ++ more) := by
  have agrees := chronicle.agrees
  rw [if_pos running] at agrees
  rw [foldl_take, chronicle.driver_eq] at resolver_eq bus_eq
  obtain ⟨hpublished, hresolver⟩ := agrees.runEvents
    ((((SyncDriver.ofPolicy options.policy).run turns).2.run more).1.map (·.event))
  refine ⟨?_, ?_, ?_, fun idle => ?_⟩
  · rw [driver_eq, chronicle.driver_eq, SyncDriver.run_append]
  · rw [resolver_eq, if_pos still, options.told_append]
    exact hresolver
  · rw [bus_eq, options.told_append, EventBus.publishAll_append, ← chronicle.bus_eq, ← hpublished]
  · exact absurd (still.symm.trans idle) nofun

/-- Whatever run tells all that has come of the one service tells so of the other, if it goes on. -/
def Continues (options : ServiceOptions) (service later : ResolverService σ) : Prop :=
  ∀ turns, service.Chronicle options turns → ∃ more, later.Chronicle options (turns ++ more)

namespace Continues

variable {later last : ResolverService σ}

theorem trans (h : service.Continues options later) (h' : later.Continues options last) :
    service.Continues options last := by
  intro turns chronicle
  obtain ⟨more, hlater⟩ := h turns chronicle
  obtain ⟨most, hlast⟩ := h' _ hlater
  exact ⟨more ++ most, List.append_assoc .. ▸ hlast⟩

/-- A service goes on if nothing changes but its clock, its calls, its channel, its readers and its
cache. -/
theorem of_unchanged (driver_eq : later.writer.driver = service.writer.driver)
    (agrees : later.resolver.Agree service.resolver)
    (bus_eq : later.subscribers.bus = service.subscribers.bus)
    (lifecycle_eq : later.lifecycle = service.lifecycle) : service.Continues options later := by
  intro turns chronicle
  refine ⟨[], ?_⟩
  rw [List.append_nil]
  exact ⟨driver_eq.trans chronicle.driver_eq,
    lifecycle_eq ▸ agrees.trans chronicle.agrees,
    bus_eq.trans chronicle.bus_eq, fun idle => chronicle.unstarted (lifecycle_eq ▸ idle)⟩

end Continues

/-- The run of a service that is started has not begun. -/
theorem continues_start (idle : service.lifecycle = .idle) :
    service.Continues options
      { service with resolver := service.resolver.begin, lifecycle := .running } := by
  intro turns chronicle
  obtain rfl := chronicle.unstarted idle
  have agrees := chronicle.agrees
  rw [idle] at agrees
  exact ⟨[], chronicle.driver_eq, ⟨agrees.store, rfl, agrees.fatal, agrees.evaluator⟩,
    chronicle.bus_eq, nofun⟩

/-- A service that has no writer any more goes on in no way. -/
theorem continues_retire (service : ResolverService σ) :
    service.Continues options
      { service with lifecycle := .stopped, resolver := service.resolver.retire } := by
  intro turns chronicle
  refine ⟨[], ?_⟩
  rw [List.append_nil]
  refine ⟨chronicle.driver_eq, ?_, chronicle.bus_eq, nofun⟩
  have hagrees := chronicle.agrees.retire
  rw [if_neg nofun]
  split at hagrees
  · exact hagrees
  · rwa [Resolver.retire_retire] at hagrees

variable [Channel σ]

/-- The writer lets the run of its driver go on. -/
theorem continues_write (running : service.lifecycle = .running) :
    service.Continues options service.write := by
  intro turns chronicle
  obtain ⟨more, hdriver, hemission⟩ :=
    service.writer.exists_run_of_attend (.poll service.now)
  have hstate : ((service.writer.driver.run more).1.foldl take
      (service.resolver, service.subscribers)) =
        (service.write.resolver, service.write.subscribers) := by
    have hwrite : (service.write.resolver, service.write.subscribers) =
        ((service.writer.attend (.poll service.now)).1.bind (·.emission)).elim
          (service.resolver, service.subscribers)
          (take (service.resolver, service.subscribers)) := rfl
    rw [← hemission, hwrite]
    cases (service.writer.attend (.poll service.now)).1.bind (·.emission) <;> rfl
  refine ⟨more, chronicle.extend running running hdriver ?_ ?_⟩
  · rw [hstate]
  · rw [hstate]

/-- Every move lets the run of the driver go on, and changes nothing else. -/
theorem continues_play (service : ResolverService σ) (move : ServiceMove σ) :
    service.Continues options (service.play move) := by
  have moved := service.moved_play move
  generalize service.play move = later at moved ⊢
  cases moved with
  | aside driver_eq resolver_eq bus_eq lifecycle_eq =>
    exact .of_unchanged driver_eq (resolver_eq ▸ .refl _) bus_eq lifecycle_eq
  | resolved flagKey kind fallback context =>
    obtain ⟨cache, hresolve, -⟩ := service.resolver.resolve_snd flagKey kind fallback context
    rw [hresolve]
    exact .of_unchanged rfl ⟨rfl, rfl, rfl, rfl⟩ rfl rfl
  | started idle => exact continues_start idle
  | written running => exact continues_write running
  | retired => exact continues_retire service

theorem continues_playAll (service : ResolverService σ) (moves : List (ServiceMove σ)) :
    service.Continues options (service.playAll moves) := by
  induction moves generalizing service with
  | nil => exact .of_unchanged rfl (.refl _) rfl rfl
  | cons move moves ih => exact (continues_play service move).trans (ih _)

theorem continues_performAll (service : ResolverService σ) (calls : List (ServiceCall σ)) :
    service.Continues options (service.performAll calls) := by
  obtain ⟨moves, hmoves⟩ := leads_performAll service calls
  rw [← hmoves]
  exact continues_playAll service moves

/-- Every service has a chronicle. -/
theorem exists_chronicle {channel : σ} (h : (new channel options).Leads service) :
    ∃ turns, service.Chronicle options turns := by
  have unstarted : (new channel options).Chronicle options [] :=
    ⟨rfl, ⟨rfl, rfl, rfl, rfl⟩, rfl, fun _ => rfl⟩
  obtain ⟨moves, rfl⟩ := h
  obtain ⟨turns, chronicle⟩ := continues_playAll _ moves [] unstarted
  exact ⟨turns, chronicle⟩

end ResolverService

end FeatureFlags
