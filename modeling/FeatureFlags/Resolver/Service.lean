import FeatureFlags.Resolver.Basic
import FeatureFlags.Subscribers
import FeatureFlags.Sync.Writer

/-!
# The resolver as a service

A service runs a resolver: a writer feeds it from a channel, and the events that it gives are
published to subscribers. The first call of `init` starts the writer, and every call waits for the
first configuration up to a deadline; when the deadline passes, the source is still being asked.
`shutdown` stops the writer for good, and the last configuration goes on being served.

The service has a clock of its own, counted in milliseconds. No time goes by while the program is
busy: `settle` lets everybody run who has something to do, and only when all are waiting the clock
moves on, to the next moment at which something happens.
-/

namespace FeatureFlags

/-- Whether the writer of a service was started. -/
inductive Lifecycle where
  | idle
  | running
  /-- The writer was stopped, and will not be started again. -/
  | stopped
  deriving DecidableEq

/-- A call that waits for the first configuration. -/
structure InitCall where
  timeout : Duration
  /-- When the call gives up waiting. -/
  deadline : Nat
  outcome : Option (Except ResolverError Unit) := none

namespace InitCall

/-- A call that is made at a point of time. -/
def ofTimeout (timeout : Duration) (now : Nat) : InitCall :=
  { timeout, deadline := now + timeout.timerMilliseconds }

/-- Looks whether the wait is over. -/
def check (call : InitCall) (resolver : Resolver) (now : Nat) : InitCall :=
  let late := if call.deadline ≤ now then some (.error (.initTimeout call.timeout)) else none
  { call with outcome := (call.outcome.or resolver.verdict).or late }

end InitCall

/-- How a service is set up. -/
structure ServiceOptions where
  policy : RetryPolicy := {}
  /-- The room in the cache of resolutions; with none, nothing is cached. -/
  cacheCapacity : Nat := 1000
  eventCapacity : Nat := 64
  /-- How long a call waits for the first configuration. -/
  initTimeout : Duration := .ofMilliseconds 5000
  evaluator : TargetingEvaluator := TargetingRules.evaluator

/-- The options that a configuration asks for. -/
def ServiceOptions.ofConfig (config : ResolverConfig) : ServiceOptions where
  policy := config.retryPolicy
  cacheCapacity := config.cacheCapacity
  initTimeout := config.deadline

/-- A resolver with its writer and its subscribers. -/
structure ResolverService (σ : Type) where
  resolver : Resolver
  subscribers : Subscribers
  writer : Writer σ
  initTimeout : Duration
  lifecycle : Lifecycle := .idle
  now : Nat := 0
  /-- When the writer will have something to do. -/
  wake : Option Nat := none
  /-- A call of `init` that is going on in the background. -/
  background : Option InitCall := none

namespace ResolverService

variable {σ : Type}

def new (channel : σ) (options : ServiceOptions) : ResolverService σ where
  resolver := .new options.cacheCapacity options.evaluator
  subscribers := { bus := .new options.eventCapacity }
  writer := .new channel options.policy
  initTimeout := options.initTimeout

/-- Changes the channel, which the application may do at any time. -/
def modifyChannel (service : ResolverService σ) (f : σ → σ) : ResolverService σ :=
  { service with writer := { service.writer with channel := f service.writer.channel } }

def modifySubscribers (service : ResolverService σ) (f : Subscribers → Subscribers) :
    ResolverService σ :=
  { service with subscribers := f service.subscribers }

/-- Takes what the writer hands out, and publishes the events that follow. -/
def take (state : Resolver × Subscribers) (emission : Emission) : Resolver × Subscribers :=
  let (events, resolver) := state.1.handle emission.event
  (resolver, events.foldl Subscribers.publish state.2)

/-- Looks whether the call in the background has to wait any longer. -/
def checkBackground (service : ResolverService σ) : ResolverService σ :=
  { service with background := service.background.map (·.check service.resolver service.now) }

/-- Begins to wait for the first configuration; the first call starts the writer. -/
def call (service : ResolverService σ) (timeout : Duration) : InitCall × ResolverService σ :=
  let call := InitCall.ofTimeout timeout service.now
  match service.lifecycle with
  | .stopped => ({ call with outcome := some (.error .shutdown) }, service)
  | .running => (call.check service.resolver service.now, service)
  | .idle =>
    let resolver := service.resolver.begin
    (call.check resolver service.now, { service with resolver, lifecycle := .running })

/-- The first moment up to a limit at which something happens. -/
def nextMoment (service : ResolverService σ) (limit : Nat) : Nat :=
  let alarms := service.wake.toList ++ (service.background.map (·.deadline)).toList
  (alarms.filter (service.now < ·)).foldl Nat.min limit

variable [Channel σ]

/-- Lets the writer and the handlers of events run until all of them have to wait. -/
def settle (service : ResolverService σ) : ResolverService σ :=
  let service :=
    if service.lifecycle = .running then
      let ((resolver, subscribers), wake, writer) :=
        service.writer.settle take service.now (service.resolver, service.subscribers)
      { service with resolver, subscribers, wake, writer }
    else service
  (service.modifySubscribers Subscribers.settle).checkBackground

/-- Lets time go by. -/
def advance (service : ResolverService σ) (milliseconds : Nat) : ResolverService σ :=
  go (service.now + milliseconds) milliseconds service
where
  /-- Goes from moment to moment, of which there is at most one in each millisecond. -/
  go (last : Nat) : Nat → ResolverService σ → ResolverService σ
    | 0, service => service.settle
    | left + 1, service =>
      let service := service.settle
      if last ≤ service.now then service
      else go last left { service with now := service.nextMoment last }

/-- Waits until a call is over. -/
def await (service : ResolverService σ) (call : InitCall) :
    Except ResolverError Unit × ResolverService σ :=
  go (call.deadline - service.now + 1) service call
where
  /-- Goes from moment to moment, of which there is at most one in each millisecond. -/
  go : Nat → ResolverService σ → InitCall → Except ResolverError Unit × ResolverService σ
    | 0, service, call => (call.outcome.getD (.error (.initTimeout call.timeout)), service)
    | left + 1, service, call =>
      match call.outcome with
      | some outcome => (outcome, service)
      | none =>
        let service := service.settle
        let call := call.check service.resolver service.now
        match call.outcome with
        | some outcome => (outcome, service)
        | none => go left { service with now := service.nextMoment call.deadline } call

/-- Waits for the first configuration. -/
def init (service : ResolverService σ) (timeout : Duration) :
    Except ResolverError Unit × ResolverService σ :=
  let (call, service) := service.call timeout
  service.await call

/-- Begins to wait for the first configuration in the background. -/
def spawnInit (service : ResolverService σ) : ResolverService σ :=
  let (call, service) := service.call service.initTimeout
  { service with background := some call }

/-- Waits for the call in the background, if there is one. -/
def joinInit (service : ResolverService σ) :
    Option (Except ResolverError Unit) × ResolverService σ :=
  match service.background with
  | none => (none, service)
  | some call =>
    let (outcome, service) := { service with background := none }.await call
    (some outcome, service)

/-- Stops the writer for good. -/
def shutdown (service : ResolverService σ) : ResolverService σ :=
  let service :=
    if service.lifecycle = .running then
      { service with writer := service.writer.cancel }.settle
    else service
  { service with lifecycle := .stopped, resolver := service.resolver.retire }

end ResolverService

end FeatureFlags
