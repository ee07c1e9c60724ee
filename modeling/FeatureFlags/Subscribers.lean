import FeatureFlags.Bus
import FeatureFlags.Dict

/-!
# Named subscribers of a bus

Two kinds of subscribers share a bus. A reader asks for events when it wants them. A handler is run
by itself for every event, but only when the program is idle; until then its events wait. A handler
that was dismissed handles nothing more, but its subscription counts until the program is idle.

Once the bus is closed, what was published before is still delivered, and then every subscription
comes to its end.
-/

namespace FeatureFlags

/-- A handler with the numbers of the events that it has seen. -/
structure Handler where
  subscription : Subscription
  seen : List UInt64 := []
  /-- Whether it is still waiting for events. -/
  active : Bool := true

namespace Handler

/-- Hands the waiting events to the handler. -/
def run (bus : EventBus) (closed : Bool) (h : Handler) : Handler :=
  if h.active then
    let (events, subscription) := bus.drain h.subscription
    ⟨subscription, h.seen ++ events.map (·.sequence), !closed⟩
  else h

end Handler

/-- A bus with its subscribers. -/
structure Subscribers where
  bus : EventBus
  closed : Bool := false
  readers : Dict Subscription := ∅
  handlers : Dict Handler := ∅
  /-- The dismissed handlers whose subscriptions still count. -/
  leaving : Nat := 0

namespace Subscribers

/-- The number of subscriptions that count. -/
def count (s : Subscribers) : Nat :=
  s.readers.size + (s.handlers.values.filter (·.active)).length + s.leaving

def publish (s : Subscribers) (event : ProviderEvent) : Subscribers :=
  { s with bus := s.bus.publish event }

/-- Lets the program become idle. -/
def settle (s : Subscribers) : Subscribers :=
  { s with handlers := s.handlers.mapValues (Handler.run s.bus s.closed), leaving := 0 }

/-- Closes the bus. -/
def close (s : Subscribers) : Subscribers := { s with closed := true }.settle

/-- Adds a reader, in place of one of the same name. -/
def addReader (s : Subscribers) (name : String) : Subscribers :=
  { s with readers := s.readers.insert name s.bus.subscribe }

def removeReader (s : Subscribers) (name : String) : Subscribers :=
  { s with readers := s.readers.erase name }

/-- The next event of a reader, which has to exist. -/
def receive (s : Subscribers) (name : String) : Option ProviderEvent × Subscribers :=
  match s.readers.get? name with
  | none => (none, s)
  | some subscription =>
    let (event, subscription) := s.bus.receive subscription
    (event, { s with readers := s.readers.insert name subscription })

/-- All waiting events of a reader. -/
def drain (s : Subscribers) (name : String) : List ProviderEvent × Subscribers :=
  match s.readers.get? name with
  | none => ([], s)
  | some subscription =>
    let (events, subscription) := s.bus.drain subscription
    (events, { s with readers := s.readers.insert name subscription })

/-- The events that a reader has missed. -/
def dropped (s : Subscribers) (name : String) : Nat :=
  ((s.readers.get? name).map (·.dropped)).getD 0

/-- Dismisses a handler. -/
def removeHandler (s : Subscribers) (name : String) : Subscribers :=
  match s.handlers.get? name with
  | none => s
  | some handler =>
    { s with
      handlers := s.handlers.erase name
      leaving := if handler.active then s.leaving + 1 else s.leaving }

/-- Adds a handler, in place of one of the same name. -/
def addHandler (s : Subscribers) (name : String) : Subscribers :=
  let s := s.removeHandler name
  { s with handlers := s.handlers.insert name { subscription := s.bus.subscribe } }

end Subscribers

end FeatureFlags
