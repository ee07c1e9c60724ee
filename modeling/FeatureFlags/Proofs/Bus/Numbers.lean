import FeatureFlags.Bus

/-!
# The numbers of events

`stampAll` lists events as a bus hands them out, each with its number. The ring holds the newest of
them (`recent_publishAll`). The numbers depend only on how many events there were before: a bus that
has published one event more gives each of them the next higher number
(`stampAll_of_published_succ`).
-/

namespace FeatureFlags

/-- The event with the next higher number. -/
def ProviderEvent.oneHigher (event : ProviderEvent) : ProviderEvent :=
  { event with sequence := event.sequence + 1 }

namespace EventBus

/-- The event with the number that it gets when it is published next. -/
def stamp (bus : EventBus) (event : ProviderEvent) : ProviderEvent :=
  { event with sequence := UInt64.ofNat (bus.published + 1) }

/-- Publishes events one after the other. -/
def publishAll (bus : EventBus) (events : List ProviderEvent) : EventBus :=
  events.foldl publish bus

/-- The events with the numbers that they get when they are published one after the other. -/
def stampAll : EventBus → List ProviderEvent → List ProviderEvent
  | _, [] => []
  | bus, event :: events => bus.stamp event :: (bus.publish event).stampAll events

@[simp] theorem published_publish (bus : EventBus) (event : ProviderEvent) :
    (bus.publish event).published = bus.published + 1 := rfl

@[simp] theorem ring_publish (bus : EventBus) (event : ProviderEvent) :
    (bus.publish event).ring = bus.ring := rfl

theorem publishAll_append (bus : EventBus) (xs ys : List ProviderEvent) :
    bus.publishAll (xs ++ ys) = (bus.publishAll xs).publishAll ys :=
  List.foldl_append

@[simp] theorem published_publishAll (bus : EventBus) (events : List ProviderEvent) :
    (bus.publishAll events).published = bus.published + events.length := by
  induction events generalizing bus with
  | nil => rfl
  | cons event events ih =>
    refine (ih (bus.publish event)).trans ?_
    rw [published_publish, List.length_cons]
    omega

@[simp] theorem ring_publishAll (bus : EventBus) (events : List ProviderEvent) :
    (bus.publishAll events).ring = bus.ring := by
  induction events generalizing bus with
  | nil => rfl
  | cons event events ih => exact ih (bus.publish event)

theorem stampAll_append (bus : EventBus) (xs ys : List ProviderEvent) :
    bus.stampAll (xs ++ ys) = bus.stampAll xs ++ (bus.publishAll xs).stampAll ys := by
  induction xs generalizing bus with
  | nil => rfl
  | cons x xs ih => exact congrArg _ (ih (bus.publish x))

@[simp] theorem length_stampAll (bus : EventBus) (events : List ProviderEvent) :
    (bus.stampAll events).length = events.length := by
  induction events generalizing bus with
  | nil => rfl
  | cons event events ih => exact congrArg (· + 1) (ih (bus.publish event))

/-- The ring holds the newest events, the last one first. -/
theorem recent_publishAll (bus : EventBus) (events : List ProviderEvent)
    (kept : bus.recent.length ≤ bus.ring) :
    (bus.publishAll events).recent =
      ((bus.stampAll events).reverse ++ bus.recent).take bus.ring := by
  induction events generalizing bus with
  | nil => exact (List.take_of_length_le kept).symm
  | cons event events ih =>
    have hlength : (bus.publish event).recent.length ≤ bus.ring := List.length_take_le _ _
    refine (ih (bus.publish event) hlength).trans ?_
    rw [ring_publish, stampAll, List.reverse_cons, List.append_assoc, List.singleton_append,
      List.take_append, List.take_append (i := bus.ring)]
    change _ ++ List.take _ (List.take bus.ring (bus.stamp event :: bus.recent)) = _
    rw [List.take_take, Nat.min_eq_left (Nat.sub_le _ _)]

theorem ring_new_pos (capacity : Nat) : 0 < (new capacity).ring :=
  Nat.pos_of_isPowerOfTwo (Nat.isPowerOfTwo_nextPowerOfTwo _)

/-- The newest event in the ring is the one that was published last. -/
theorem head?_recent_publish (bus : EventBus) (roomy : 0 < bus.ring) (event : ProviderEvent) :
    (bus.publish event).recent.head? = some (bus.stamp event) :=
  List.head?_take.trans (if_neg (Nat.ne_of_gt roomy))

/-- After one event more, each number is the next higher one. -/
theorem stampAll_of_published_succ {a b : EventBus} (h : b.published = a.published + 1)
    (events : List ProviderEvent) :
    b.stampAll events = (a.stampAll events).map ProviderEvent.oneHigher := by
  induction events generalizing a b with
  | nil => rfl
  | cons event events ih =>
    have hstamp : b.stamp event = (a.stamp event).oneHigher := by
      unfold stamp ProviderEvent.oneHigher
      rw [h, UInt64.ofNat_add]
      rfl
    have hpublish : (b.publish event).published = (a.publish event).published + 1 := by
      rw [published_publish, published_publish, h]
    rw [stampAll, stampAll, List.map_cons, hstamp, ih hpublish]

end EventBus

end FeatureFlags
