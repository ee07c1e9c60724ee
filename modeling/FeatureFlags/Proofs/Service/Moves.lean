import FeatureFlags.Proofs.Sync.Moments
import FeatureFlags.Resolver.Service

/-!
# What can happen to a service

Many have to do with a service at once: its writer, those who wait for the first configuration,
those who resolve flags, and whoever stops it. A `ServiceMove` is what one of them does without the
others coming in between, so moves in any order are an interleaving of all that goes on. Whatever is
asked of a service in one call is made of such moves (`leads_perform`), and what holds of a service
after any moves holds after any calls.
-/

namespace FeatureFlags

/-- Something that is asked of a service, or happens to it. -/
inductive ServiceCall (σ : Type) where
  /-- Waits for the first configuration. -/
  | init (timeout : Duration)
  /-- Begins to wait for the first configuration in the background. -/
  | spawnInit
  | joinInit
  | shutdown
  /-- Everybody runs who has something to do. -/
  | settle
  /-- Time goes by. -/
  | advance (milliseconds : Nat)
  | resolve (flagKey : String) (kind : ValueKind) (fallback : kind.Carrier)
      (context : EvaluationContext)
  /-- The application changes the channel. -/
  | modifyChannel (f : σ → σ)
  /-- Subscribers come and go, and receive events. -/
  | modifySubscribers (f : Subscribers → Subscribers) (keeps : ∀ s, (f s).bus = s.bus)

/-- What somebody does with a service while nobody else comes in. -/
inductive ServiceMove (σ : Type) where
  /-- A caller begins to wait for the first configuration. -/
  | call (timeout : Duration)
  /-- The writer looks for something to do, and does it. -/
  | write
  /-- Somebody who stops the service cancels its writer. -/
  | cancel
  /-- The service is stopped, once its writer is finished. -/
  | retire
  /-- Time goes by. -/
  | elapse (milliseconds : Nat)
  /-- The service takes note of when its writer will have something to do, and of a call in the
  background. -/
  | note (wake : Option Nat) (background : Option InitCall)
  | resolve (flagKey : String) (kind : ValueKind) (fallback : kind.Carrier)
      (context : EvaluationContext)
  | modifyChannel (f : σ → σ)
  | modifySubscribers (f : Subscribers → Subscribers) (keeps : ∀ s, (f s).bus = s.bus)

namespace InitCall

variable {call : InitCall} {resolver : Resolver} {now : Nat}

theorem outcome_check (call : InitCall) (resolver : Resolver) (now : Nat) :
    (call.check resolver now).outcome = (call.outcome.or resolver.verdict).or
      (if call.deadline ≤ now then some (.error (.initTimeout call.timeout)) else none) := rfl

/-- A call that is not over has not reached its deadline. -/
theorem early_of_check (waiting : (call.check resolver now).outcome = none) :
    now < call.deadline := by
  refine Nat.lt_of_not_le fun late => ?_
  rw [outcome_check, if_pos late] at waiting
  cases (Option.or_eq_none_iff.1 waiting).2

/-- A call that has looked in vain is as before. -/
theorem check_eq_self (waiting : (call.check resolver now).outcome = none) :
    call.check resolver now = call := by
  have houtcome : call.outcome = none := by
    rw [outcome_check] at waiting
    exact (Option.or_eq_none_iff.1 (Option.or_eq_none_iff.1 waiting).1).1
  have hcheck : call.check resolver now =
      { call with outcome := (call.check resolver now).outcome } := rfl
  rw [hcheck, waiting, ← houtcome]

/-- A call that is over stays as it is. -/
theorem outcome_check_of_some {outcome : Except ResolverError Unit}
    (finished : call.outcome = some outcome) (resolver : Resolver) (now : Nat) :
    (call.check resolver now).outcome = some outcome := by
  rw [outcome_check, finished]
  rfl

/-- A call that gives up has reached its deadline while nothing was settled. -/
theorem late_of_check {deadline : Duration} (waiting : call.outcome = none)
    (late : (call.check resolver now).outcome = some (.error (.initTimeout deadline))) :
    resolver.verdict = none ∧ call.deadline ≤ now := by
  rw [outcome_check, waiting, Option.none_or] at late
  cases hverdict : resolver.verdict with
  | some verdict =>
    rw [hverdict] at late
    cases late
    unfold Resolver.verdict at hverdict
    split at hverdict <;> cases hverdict
  | none =>
    rw [hverdict, Option.none_or] at late
    split at late
    · rename_i reached
      exact ⟨rfl, reached⟩
    · cases late

end InitCall

namespace ResolverService

variable {σ : Type}

/-- The next moment lies ahead if the limit does. -/
theorem lt_nextMoment (service : ResolverService σ) {limit : Nat} (h : service.now < limit) :
    service.now < service.nextMoment limit := by
  unfold nextMoment
  generalize service.wake.toList ++ (service.background.map (·.deadline)).toList = alarms
  dsimp only
  induction alarms generalizing limit with
  | nil => exact h
  | cons alarm alarms ih =>
    rw [List.filter_cons]
    split
    · rename_i ahead
      exact ih (Nat.lt_min.2 ⟨h, of_decide_eq_true ahead⟩)
    · exact ih h

variable [Channel σ]

/-- The writer looks for something to do, and does it; what it hands out is handled. -/
def write (service : ResolverService σ) : ResolverService σ :=
  let (entry, writer) := service.writer.attend (.poll service.now)
  let state := (service.resolver, service.subscribers)
  let (resolver, subscribers) := (entry.bind (·.emission)).elim state (take state)
  { service with writer, resolver, subscribers }

/-- What becomes of a service by a move. The writer of a service that is not running does nothing,
and a running service is not stopped before its writer is finished. -/
def play (service : ResolverService σ) : ServiceMove σ → ResolverService σ
  | .call timeout => (service.call timeout).2
  | .write => if service.lifecycle = .running then service.write else service
  | .cancel =>
    if service.lifecycle = .running then { service with writer := service.writer.cancel }
    else service
  | .retire =>
    if service.lifecycle = .running ∧ service.writer.isFinished = false then service
    else { service with lifecycle := .stopped, resolver := service.resolver.retire }
  | .elapse milliseconds => { service with now := service.now + milliseconds }
  | .note wake background => { service with wake, background }
  | .resolve flagKey kind fallback context =>
    { service with resolver := (service.resolver.resolve flagKey kind fallback context).2 }
  | .modifyChannel f => service.modifyChannel f
  | .modifySubscribers f _ => service.modifySubscribers f

/-- What a move can make of a service. -/
inductive Moved (service : ResolverService σ) : ResolverService σ → Prop
  /-- Nothing changes but the clock, the calls, the channel and the readers. -/
  | aside {later : ResolverService σ} (driver_eq : later.writer.driver = service.writer.driver)
      (resolver_eq : later.resolver = service.resolver)
      (bus_eq : later.subscribers.bus = service.subscribers.bus)
      (lifecycle_eq : later.lifecycle = service.lifecycle) : service.Moved later
  | resolved (flagKey : String) (kind : ValueKind) (fallback : kind.Carrier)
      (context : EvaluationContext) :
      service.Moved
        { service with resolver := (service.resolver.resolve flagKey kind fallback context).2 }
  | started (idle : service.lifecycle = .idle) :
      service.Moved { service with resolver := service.resolver.begin, lifecycle := .running }
  | written (running : service.lifecycle = .running) : service.Moved service.write
  | retired :
      service.Moved { service with lifecycle := .stopped, resolver := service.resolver.retire }

theorem Moved.refl (service : ResolverService σ) : service.Moved service := .aside rfl rfl rfl rfl

theorem moved_play (service : ResolverService σ) (move : ServiceMove σ) :
    service.Moved (service.play move) := by
  unfold play
  cases move with
  | call timeout =>
    dsimp only
    unfold call
    split
    · exact .refl service
    · exact .refl service
    · rename_i idle
      exact .started idle
  | write =>
    dsimp only
    split
    · rename_i running
      exact .written running
    · exact .refl service
  | cancel =>
    dsimp only
    split
    · exact .aside rfl rfl rfl rfl
    · exact .refl service
  | retire =>
    dsimp only
    split
    · exact .refl service
    · exact .retired
  | elapse milliseconds => exact .aside rfl rfl rfl rfl
  | note wake background => exact .aside rfl rfl rfl rfl
  | resolve flagKey kind fallback context => exact .resolved flagKey kind fallback context
  | modifyChannel f => exact .aside rfl rfl rfl rfl
  | modifySubscribers f keeps => exact .aside rfl rfl (keeps _) rfl

/-- Moves are made one after the other. -/
def playAll (service : ResolverService σ) (moves : List (ServiceMove σ)) : ResolverService σ :=
  moves.foldl play service

/-- What becomes of a service when something is asked of it. -/
def perform (service : ResolverService σ) : ServiceCall σ → ResolverService σ
  | .init timeout => (service.init timeout).2
  | .spawnInit => service.spawnInit
  | .joinInit => service.joinInit.2
  | .shutdown => service.shutdown
  | .settle => service.settle
  | .advance milliseconds => service.advance milliseconds
  | .resolve flagKey kind fallback context =>
    { service with resolver := (service.resolver.resolve flagKey kind fallback context).2 }
  | .modifyChannel f => service.modifyChannel f
  | .modifySubscribers f _ => service.modifySubscribers f

/-- Things are asked of a service one after the other. -/
def performAll (service : ResolverService σ) (calls : List (ServiceCall σ)) : ResolverService σ :=
  calls.foldl perform service

theorem playAll_append (service : ResolverService σ) (xs ys : List (ServiceMove σ)) :
    service.playAll (xs ++ ys) = (service.playAll xs).playAll ys :=
  List.foldl_append

/-! ## Calls are made of moves -/

/-- Some moves make the one service the other. -/
def Leads (service later : ResolverService σ) : Prop := ∃ moves, service.playAll moves = later

namespace Leads

variable {service later last : ResolverService σ}

theorem refl (service : ResolverService σ) : service.Leads service := ⟨[], rfl⟩

theorem move (made : ServiceMove σ) (h : service.play made = later) : service.Leads later :=
  ⟨[made], h⟩

theorem trans (h : service.Leads later) (h' : later.Leads last) : service.Leads last := by
  obtain ⟨moves, rfl⟩ := h
  obtain ⟨more, rfl⟩ := h'
  exact ⟨moves ++ more, service.playAll_append moves more⟩

end Leads

/-- The writer of a running service takes any number of steps. -/
theorem leads_settle_go (fuel : Nat) {service : ResolverService σ}
    (running : service.lifecycle = .running) :
    let stop := Writer.settle.go take service.now fuel service.writer
      (service.resolver, service.subscribers)
    service.Leads { service with
      resolver := stop.1.1, subscribers := stop.1.2, writer := stop.2.2 } := by
  induction fuel generalizing service with
  | zero => exact .refl service
  | succ fuel ih =>
    have hwrite : service.Leads service.write := .move .write (if_pos running)
    unfold Writer.settle.go
    unfold write at hwrite
    split
    · rename_i wake writer hpoll
      rw [Writer.attend_of_pending hpoll] at hwrite
      exact hwrite
    · rename_i input writer hpoll
      rw [Writer.attend_of_ready hpoll] at hwrite
      exact hwrite.trans (ih running)

/-- The service takes note of something, and its subscribers receive what waits for them. -/
theorem leads_note (service : ResolverService σ) (wake : Option Nat) :
    service.Leads ({ service with wake }.modifySubscribers Subscribers.settle).checkBackground := by
  have hwake : service.Leads { service with wake } := .move (.note wake service.background) rfl
  have hsubscribers : Leads { service with wake }
      ({ service with wake }.modifySubscribers Subscribers.settle) :=
    .move (.modifySubscribers Subscribers.settle fun _ => rfl) rfl
  exact (hwake.trans hsubscribers).trans (.move (.note _ _) rfl)

theorem leads_settle (service : ResolverService σ) : service.Leads service.settle := by
  unfold settle
  dsimp only
  split
  · rename_i running
    exact (leads_settle_go service.writer.bound running).trans (leads_note _ _)
  · exact leads_note service service.wake

theorem leads_call (service : ResolverService σ) (timeout : Duration) :
    service.Leads (service.call timeout).2 := .move (.call timeout) rfl

/-- Time goes by up to a moment that lies ahead. -/
theorem leads_clock {service : ResolverService σ} {now : Nat} (ahead : service.now < now) :
    service.Leads { service with now } := by
  refine .move (.elapse (now - service.now)) ?_
  exact congrArg (fun now => { service with now }) (Nat.add_sub_cancel' (Nat.le_of_lt ahead))

theorem leads_advance_go (last left : Nat) (service : ResolverService σ) :
    service.Leads (advance.go last left service) := by
  induction left generalizing service with
  | zero => exact leads_settle service
  | succ left ih =>
    unfold advance.go
    dsimp only
    split
    · exact leads_settle service
    · rename_i early
      have ahead := service.settle.lt_nextMoment (Nat.lt_of_not_le early)
      exact ((leads_settle service).trans (leads_clock ahead)).trans (ih _)

theorem leads_await_go (left : Nat) (service : ResolverService σ) (call : InitCall) :
    service.Leads (await.go left service call).2 := by
  induction left generalizing service call with
  | zero => exact .refl service
  | succ left ih =>
    unfold await.go
    dsimp only
    split
    · exact .refl service
    · split
      · exact leads_settle service
      · rename_i waiting
        have ahead := service.settle.lt_nextMoment (InitCall.early_of_check waiting)
        exact ((leads_settle service).trans (leads_clock ahead)).trans (ih _ _)

theorem leads_await (service : ResolverService σ) (call : InitCall) :
    service.Leads (service.await call).2 := leads_await_go _ service call

theorem leads_joinInit (service : ResolverService σ) : service.Leads service.joinInit.2 := by
  unfold joinInit
  split
  · exact .refl service
  · rename_i call _
    have hcall : service.Leads { service with background := none } := .move (.note _ none) rfl
    exact hcall.trans (leads_await _ call)

/-- To stop a running service finishes its writer without a word. -/
theorem settle_cancel {service : ResolverService σ} (running : service.lifecycle = .running) :
    let cancelled := { service with writer := service.writer.cancel }.settle
    cancelled.resolver = service.resolver ∧
      cancelled.subscribers.bus = service.subscribers.bus ∧
      cancelled.writer.isFinished = true ∧ cancelled.lifecycle = .running := by
  have hcancelled : service.writer.cancel.cancelled = true := rfl
  obtain ⟨hstate, hfinished⟩ := Writer.settle_of_cancelled take service.now hcancelled
    (service.resolver, service.subscribers)
  unfold settle
  rw [if_pos running]
  refine ⟨congrArg (·.1) hstate, congrArg (·.2.bus) hstate, hfinished, running⟩

theorem leads_shutdown (service : ResolverService σ) : service.Leads service.shutdown := by
  unfold shutdown
  dsimp only
  split
  · rename_i running
    obtain ⟨-, -, finished, still⟩ := settle_cancel running
    have hcancel : service.Leads { service with writer := service.writer.cancel } :=
      .move .cancel (if_pos running)
    refine (hcancel.trans (leads_settle _)).trans (.move .retire (if_neg ?_))
    rw [finished]
    exact fun h => nomatch h.2
  · rename_i still
    exact .move .retire (if_neg fun h => still h.1)

/-- Whatever is asked of a service is made of moves. -/
theorem leads_perform (service : ResolverService σ) (call : ServiceCall σ) :
    service.Leads (service.perform call) := by
  cases call with
  | init timeout => exact (leads_call service timeout).trans (leads_await _ _)
  | spawnInit => exact (leads_call service service.initTimeout).trans (.move (.note _ _) rfl)
  | joinInit => exact leads_joinInit service
  | shutdown => exact leads_shutdown service
  | settle => exact leads_settle service
  | advance milliseconds => exact leads_advance_go _ milliseconds service
  | resolve flagKey kind fallback context => exact .move (.resolve flagKey kind fallback context) rfl
  | modifyChannel f => exact .move (.modifyChannel f) rfl
  | modifySubscribers f keeps => exact .move (.modifySubscribers f keeps) rfl

theorem leads_performAll (service : ResolverService σ) (calls : List (ServiceCall σ)) :
    service.Leads (service.performAll calls) := by
  induction calls generalizing service with
  | nil => exact .refl service
  | cons call calls ih => exact (leads_perform service call).trans (ih _)

end ResolverService

end FeatureFlags
