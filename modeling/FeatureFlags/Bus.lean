import FeatureFlags.Event

/-!
# Delivering events to subscribers

The bus numbers events from 1 on and keeps the newest ones in a ring, whose size is a power of two.
Each subscription reads at its own pace from where it began. One that falls behind by more than the
size of the ring goes on with the oldest event that is kept, and counts those that it missed; it
never holds up the publisher or another subscription.
-/

namespace FeatureFlags

/-- The publisher's side: the size of the ring, the number of events so far, and the newest of them,
the last one first. -/
structure EventBus where
  ring : Nat
  published : Nat := 0
  recent : List ProviderEvent := []

namespace EventBus

/-- A bus whose ring holds at least as many events as asked for, and at least one. -/
def new (capacity : Nat) : EventBus := { ring := (Nat.max capacity 1).nextPowerOfTwo }

/-- Numbers an event and hands it to the subscriptions. -/
def publish (bus : EventBus) (event : ProviderEvent) : EventBus :=
  let sequence := bus.published + 1
  { bus with
    published := sequence
    recent := ({ event with sequence := UInt64.ofNat sequence } :: bus.recent).take bus.ring }

end EventBus

/-- A subscriber's side: the number of events that lie behind it, and how many of them were
missed. -/
structure Subscription where
  position : Nat
  dropped : Nat := 0

namespace EventBus

/-- A subscription that begins with the next event. -/
def subscribe (bus : EventBus) : Subscription := { position := bus.published }

/-- The subscription moved on to the oldest event that is kept. -/
def catchUp (bus : EventBus) (s : Subscription) : Subscription :=
  let missed := bus.published - bus.ring - s.position
  ⟨s.position + missed, s.dropped + missed⟩

/-- The next event, if there is one. -/
def receive (bus : EventBus) (s : Subscription) : Option ProviderEvent × Subscription :=
  let s := bus.catchUp s
  if s.position < bus.published then
    (bus.recent[bus.published - 1 - s.position]?, { s with position := s.position + 1 })
  else (none, s)

/-- Receives up to a number of events. -/
def receiveUpTo (bus : EventBus) : Nat → Subscription → List ProviderEvent × Subscription
  | 0, s => ([], s)
  | n + 1, s =>
    match bus.receive s with
    | (some event, s) =>
      let (events, s) := receiveUpTo bus n s
      (event :: events, s)
    | (none, s) => ([], s)

/-- All events that are waiting. -/
def drain (bus : EventBus) (s : Subscription) : List ProviderEvent × Subscription :=
  bus.receiveUpTo (bus.published - s.position) s

end EventBus

end FeatureFlags
