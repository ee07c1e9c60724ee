import FeatureFlags.Proofs.Bus.Ring
import FeatureFlags.Subscribers

/-!
# What subscribers receive

Readers and handlers share a bus, and all of them go at their own pace. `BusMove` is what can happen
next to a bus with its subscribers.

* `Attends` says how a reader stands to the events so far, and `Attends.playAll` carries it through
  all moves that leave the reader its subscription;
* `Matches.playAll`: a run is the same to a reader without all that the others do;
* `deliveries_accounted_for`: what follows for the numbers.
-/

namespace FeatureFlags

open EventBus

/-- What can happen to a bus with its subscribers. -/
inductive BusMove where
  | publish (event : ProviderEvent)
  /-- A reader subscribes, in place of one of the same name. -/
  | subscribe (name : String)
  /-- A reader asks for the next event. -/
  | receive (name : String)
  | unsubscribe (name : String)
  /-- A handler is added. -/
  | attach (name : String)
  /-- A handler is dismissed. -/
  | dismiss (name : String)
  /-- The handlers get to run. -/
  | idle
  deriving DecidableEq

namespace BusMove

/-- The event that is published. -/
def event? : BusMove → Option ProviderEvent
  | publish event => some event
  | _ => none

/-- The events that are published, in their order. -/
def events (moves : List BusMove) : List ProviderEvent := moves.filterMap event?

/-- Whether a reader has to do with a move: it is published to everybody, or the reader makes it. -/
def concerns (name : String) : BusMove → Bool
  | publish _ => true
  | subscribe other | receive other | unsubscribe other => other = name
  | attach _ | dismiss _ | idle => false

/-- Whether the subscription of a reader ends, or one of the same name begins. -/
def replaces (name : String) : BusMove → Bool
  | subscribe other | unsubscribe other => other = name
  | _ => false

theorem events_append (xs ys : List BusMove) : events (xs ++ ys) = events xs ++ events ys :=
  List.filterMap_append

end BusMove

namespace Subscribers

/-- A bus without subscribers. -/
def start (capacity : Nat) : Subscribers := { bus := .new capacity }

def play (s : Subscribers) : BusMove → Subscribers
  | .publish event => s.publish event
  | .subscribe name => s.addReader name
  | .receive name => (s.receive name).2
  | .unsubscribe name => s.removeReader name
  | .attach name => s.addHandler name
  | .dismiss name => s.removeHandler name
  | .idle => s.settle

/-- Moves are made one after the other. -/
def playAll (s : Subscribers) (moves : List BusMove) : Subscribers := moves.foldl play s

/-- The numbers that the publisher gets back. -/
def numbers : Subscribers → List BusMove → List UInt64
  | _, [] => []
  | s, move :: moves =>
    (move.event?.map fun event => (s.bus.stamp event).sequence).toList ++
      (s.play move).numbers moves

/-- What comes of a move for a reader: the event that it gets, if it asks for one. -/
def handed (name : String) (s : Subscribers) (move : BusMove) : List ProviderEvent :=
  if move = .receive name then (s.receive name).1.toList else []

/-- The events that a reader gets. -/
def received (name : String) : Subscribers → List BusMove → List ProviderEvent
  | _, [] => []
  | s, move :: moves => s.handed name move ++ received name (s.play move) moves

/-- The number of events that lie before a reader. -/
def pending (name : String) (s : Subscribers) : Nat :=
  ((s.readers.get? name).map fun subscription => s.bus.published - subscription.position).getD 0

variable {name : String} {s t : Subscribers} {move : BusMove}

/-! ### What a move does -/

theorem receive_eq {subscription : Subscription} (h : s.readers.get? name = some subscription) :
    s.receive name = ((s.bus.receive subscription).1,
      { s with readers := s.readers.insert name (s.bus.receive subscription).2 }) := by
  unfold receive
  rw [h]

theorem bus_receive (s : Subscribers) (name : String) : (s.receive name).2.bus = s.bus := by
  unfold receive
  split <;> rfl

theorem get?_receive_of_ne {other : String} (h : name ≠ other) :
    (s.receive other).2.readers.get? name = s.readers.get? name := by
  unfold receive
  split
  · rfl
  · exact (Dict.get?_insert _ _ _ _).trans (if_neg h)

theorem removeHandler_eq (s : Subscribers) (name : String) :
    (s.removeHandler name).bus = s.bus ∧ (s.removeHandler name).readers = s.readers := by
  unfold removeHandler
  split <;> exact ⟨rfl, rfl⟩

/-- Only the publisher changes the bus. -/
theorem bus_play (s : Subscribers) (move : BusMove) :
    (s.play move).bus = s.bus.publishAll move.event?.toList := by
  cases move with
  | receive name => exact s.bus_receive name
  | dismiss name => exact (s.removeHandler_eq name).1
  | attach name => exact (s.removeHandler_eq name).1
  | publish event => rfl
  | subscribe name => rfl
  | unsubscribe name => rfl
  | idle => rfl

theorem bus_playAll (s : Subscribers) (moves : List BusMove) :
    (s.playAll moves).bus = s.bus.publishAll (BusMove.events moves) := by
  induction moves generalizing s with
  | nil => rfl
  | cons move moves ih =>
    refine (ih (s.play move)).trans ?_
    rw [bus_play, ← publishAll_append]
    unfold BusMove.events
    cases h : move.event? <;> simp [h]

/-- A reader keeps its subscription while it does nothing. -/
theorem get?_play_of_ne (keeps : move.replaces name = false) (quiet : move ≠ .receive name) :
    (s.play move).readers.get? name = s.readers.get? name := by
  cases move with
  | publish event => rfl
  | subscribe other =>
    have hne : name ≠ other := fun h => of_decide_eq_false keeps h.symm
    exact (Dict.get?_insert _ _ _ _).trans (if_neg hne)
  | receive other => exact get?_receive_of_ne fun h => quiet (congrArg _ h.symm)
  | unsubscribe other =>
    have hne : name ≠ other := fun h => of_decide_eq_false keeps h.symm
    exact (Dict.get?_erase _ _ _).trans (if_neg hne)
  | attach other => exact congrArg (·.get? name) (s.removeHandler_eq other).2
  | dismiss other => exact congrArg (·.get? name) (s.removeHandler_eq other).2
  | idle => rfl

/-- The numbers that the publisher gets back are those that the subscribers see. -/
theorem numbers_eq (s : Subscribers) (moves : List BusMove) :
    s.numbers moves = (s.bus.stampAll (BusMove.events moves)).map (·.sequence) := by
  induction moves generalizing s with
  | nil => rfl
  | cons move moves ih =>
    rw [numbers, ih, bus_play]
    unfold BusMove.events
    cases h : move.event? with
    | none =>
      rw [List.filterMap_cons_none h]
      rfl
    | some event =>
      rw [List.filterMap_cons_some h]
      rfl

/-! ### The course of a subscription -/

/-- A reader with its subscription of a bus, and how it stands to the events so far. -/
structure Attends (capacity joined : Nat) (name : String) (ledger received : List ProviderEvent)
    (s : Subscribers) (subscription : Subscription) : Prop where
  bus_eq : s.bus = (EventBus.new capacity).publishAll ledger
  get?_eq : s.readers.get? name = some subscription
  accounts : Accounts ledger joined received subscription

namespace Attends

variable {capacity joined : Nat} {ledger got : List ProviderEvent} {subscription : Subscription}

/-- One move of anybody, unless it ends the subscription. A reader that has not missed anything
misses nothing by a request while the ring holds all that is pending. -/
theorem play (attends : Attends capacity joined name ledger got s subscription)
    (keeps : move.replaces name = false) :
    ∃ next, Attends capacity joined name (ledger ++ move.event?.toList)
        (got ++ s.handed name move) (s.play move) next ∧
      ((move = .receive name → s.pending name ≤ (EventBus.new capacity).ring) →
        next.dropped = subscription.dropped) := by
  have hbus : (s.play move).bus =
      (EventBus.new capacity).publishAll (ledger ++ move.event?.toList) := by
    rw [bus_play, attends.bus_eq, publishAll_append]
  by_cases asks : move = .receive name
  · subst asks
    have hreceive := receive_eq attends.get?_eq
    have haccounts := attends.accounts.receive capacity
    rw [← attends.bus_eq] at haccounts
    refine ⟨(s.bus.receive subscription).2, ⟨hbus, ?_, ?_⟩, fun roomy => ?_⟩
    · show (s.receive name).2.readers.get? name = _
      rw [hreceive]
      exact (Dict.get?_insert _ _ _ _).trans (if_pos rfl)
    · rw [handed, if_pos rfl, hreceive]
      show Accounts (ledger ++ []) _ _ _
      rw [List.append_nil]
      exact haccounts
    · have hpending : ledger.length - subscription.position ≤ (EventBus.new capacity).ring := by
        have := roomy rfl
        rwa [pending, attends.get?_eq, Option.map_some, Option.getD_some, attends.bus_eq,
          published_publishAll, published_new, Nat.zero_add] at this
      rw [attends.bus_eq, receive_publishAll _ attends.accounts.position_le]
      split
      · rfl
      · show subscription.dropped + _ = _
        rw [Nat.sub_eq_zero_of_le hpending, Nat.add_zero]
  · refine ⟨subscription, ⟨hbus, ?_, ?_⟩, fun _ => rfl⟩
    · rw [get?_play_of_ne keeps asks, attends.get?_eq]
    · rw [handed, if_neg asks, List.append_nil]
      exact attends.accounts.publish _

/-- All moves that leave a reader its subscription. -/
theorem playAll (attends : Attends capacity joined name ledger got s subscription)
    {moves : List BusMove} (keeps : ∀ move ∈ moves, move.replaces name = false) :
    ∃ final, Attends capacity joined name (ledger ++ BusMove.events moves)
        (got ++ s.received name moves) (s.playAll moves) final ∧
      ((∀ first rest, moves = first ++ .receive name :: rest →
          (s.playAll first).pending name ≤ (EventBus.new capacity).ring) →
        final.dropped = subscription.dropped) := by
  induction moves generalizing s ledger got subscription with
  | nil =>
    refine ⟨subscription, ?_, fun _ => rfl⟩
    show Attends capacity joined name (ledger ++ []) (got ++ []) s subscription
    rwa [List.append_nil, List.append_nil]
  | cons move moves ih =>
    obtain ⟨next, hnext, hdropped⟩ := attends.play (keeps move List.mem_cons_self)
    obtain ⟨final, hfinal, hkept⟩ := ih hnext fun m hm => keeps m (List.mem_cons_of_mem _ hm)
    refine ⟨final, ?_, fun roomy => ?_⟩
    · have hevents : BusMove.events (move :: moves) =
          move.event?.toList ++ BusMove.events moves := by
        unfold BusMove.events
        cases h : move.event? <;> simp [h]
      rw [hevents, received, ← List.append_assoc, ← List.append_assoc]
      exact hfinal
    · rw [hkept fun first rest h => ?_, hdropped fun asks => ?_]
      · exact roomy [] moves (congrArg (· :: moves) asks)
      · exact roomy (move :: first) rest (congrArg (move :: ·) h)

theorem dropped_eq (attends : Attends capacity joined name ledger got s subscription) :
    s.dropped name = subscription.dropped := by
  rw [dropped, attends.get?_eq]
  rfl

theorem pending_eq (attends : Attends capacity joined name ledger got s subscription) :
    s.pending name = ledger.length - subscription.position := by
  rw [pending, attends.get?_eq, attends.bus_eq, Option.map_some, Option.getD_some,
    published_publishAll, published_new, Nat.zero_add]

/-- What lies behind a reader, and what lies before it, is all that was published. -/
theorem accounted (attends : Attends capacity joined name ledger got s subscription) :
    joined + got.length + s.dropped name + s.pending name = ledger.length := by
  have hposition := attends.accounts.position_eq
  have hle := attends.accounts.position_le
  rw [attends.dropped_eq, attends.pending_eq]
  omega

/-- The next event that a reader gets is the oldest one that is pending and still in the ring. -/
theorem receive_eq (attends : Attends capacity joined name ledger got s subscription) :
    (s.receive name).1 = (if s.pending name = 0 then none
      else numbered ledger
        (ledger.length - min (s.pending name) (EventBus.new capacity).ring + 1)) ∧
    (s.receive name).2.dropped name =
      s.dropped name + (s.pending name - (EventBus.new capacity).ring) := by
  have hle := attends.accounts.position_le
  rw [Subscribers.receive_eq attends.get?_eq, attends.dropped_eq, attends.pending_eq, dropped,
    Dict.get?_insert, if_pos rfl, attends.bus_eq, receive_publishAll _ hle]
  split
  · rename_i level
    rw [if_pos (by omega)]
    exact ⟨rfl, by rw [level, Nat.sub_self, Nat.zero_sub]; rfl⟩
  · rename_i behind
    rw [if_neg (by omega)]
    refine ⟨?_, rfl⟩
    dsimp only
    congr 1
    omega

theorem isSome_receive (attends : Attends capacity joined name ledger got s subscription) :
    (s.receive name).1.isSome = true ↔ 0 < s.pending name := by
  have roomy : 0 < (EventBus.new capacity).ring := ring_new_pos capacity
  have haccounted := attends.accounted
  rw [attends.receive_eq.1]
  split
  · rename_i nothing
    simp [nothing]
  · rename_i something
    exact ⟨fun _ => Nat.pos_of_ne_zero something,
      fun _ => isSome_numbered (Nat.succ_pos _) (by omega)⟩

end Attends

/-- A reader subscribes. -/
theorem attends_subscribe (capacity : Nat) (name : String) (before : List BusMove) :
    Attends capacity (BusMove.events before).length name (BusMove.events before) []
      (((start capacity).playAll before).addReader name)
      ((EventBus.new capacity).publishAll (BusMove.events before)).subscribe where
  bus_eq := bus_playAll _ _
  get?_eq := by
    refine (Dict.get?_insert _ _ _ _).trans ?_
    rw [if_pos rfl, bus_playAll]
    rfl
  accounts := .subscribe capacity _

/-! ### What the others do -/

/-- Two buses on which a reader finds the same. -/
structure Matches (name : String) (s t : Subscribers) : Prop where
  bus_eq : s.bus = t.bus
  get?_eq : s.readers.get? name = t.readers.get? name

namespace Matches

theorem receive_eq (alike : Matches name s t) : (s.receive name).1 = (t.receive name).1 := by
  unfold receive
  rw [alike.get?_eq]
  split <;> simp [alike.bus_eq]

/-- A move that concerns a reader is the same on both. -/
theorem play (alike : Matches name s t) (concerned : move.concerns name = true) :
    Matches name (s.play move) (t.play move) where
  bus_eq := by rw [bus_play, bus_play, alike.bus_eq]
  get?_eq := by
    cases move with
    | publish event => exact alike.get?_eq
    | subscribe other =>
      obtain rfl : other = name := of_decide_eq_true concerned
      show (s.readers.insert other _).get? other = (t.readers.insert other _).get? other
      rw [Dict.get?_insert, Dict.get?_insert, if_pos rfl, if_pos rfl, alike.bus_eq]
    | receive other =>
      obtain rfl : other = name := of_decide_eq_true concerned
      have hget := alike.get?_eq
      show (s.receive other).2.readers.get? other = (t.receive other).2.readers.get? other
      cases hs : s.readers.get? other with
      | none =>
        unfold receive
        rw [← hget, hs]
        exact hget
      | some subscription =>
        rw [Subscribers.receive_eq hs, Subscribers.receive_eq (hget ▸ hs), Dict.get?_insert,
          Dict.get?_insert, if_pos rfl, if_pos rfl, alike.bus_eq]
    | unsubscribe other =>
      obtain rfl : other = name := of_decide_eq_true concerned
      show (s.readers.erase other).get? other = (t.readers.erase other).get? other
      rw [Dict.get?_erase, Dict.get?_erase, if_pos rfl, if_pos rfl]
    | attach other => cases concerned
    | dismiss other => cases concerned
    | idle => cases concerned

/-- A move that does not concern a reader makes no difference to it. -/
theorem skip (alike : Matches name s t) (unconcerned : move.concerns name = false) :
    Matches name (s.play move) t ∧ s.handed name move = [] := by
  have quiet : move ≠ .receive name := by
    rintro rfl
    simp [BusMove.concerns] at unconcerned
  have keeps : move.replaces name = false := by
    cases move <;> first | exact unconcerned | rfl
  have unpublished : move.event? = none := by
    cases move <;> first | rfl | cases unconcerned
  refine ⟨⟨?_, ?_⟩, if_neg quiet⟩
  · rw [bus_play, unpublished]
    exact alike.bus_eq
  · rw [get?_play_of_ne keeps quiet, alike.get?_eq]

/-- A run is the same to a reader without the moves that do not concern it. -/
theorem playAll (alike : Matches name s t) (moves : List BusMove) :
    Matches name (s.playAll moves) (t.playAll (moves.filter (·.concerns name))) ∧
      s.received name moves = t.received name (moves.filter (·.concerns name)) := by
  induction moves generalizing s t with
  | nil => exact ⟨alike, rfl⟩
  | cons move moves ih =>
    cases concerned : move.concerns name with
    | true =>
      obtain ⟨hmatches, hreceived⟩ := ih (alike.play concerned)
      rw [List.filter_cons_of_pos concerned]
      refine ⟨hmatches, ?_⟩
      rw [received, received, hreceived, handed, handed, alike.receive_eq]
    | false =>
      obtain ⟨hplay, hhanded⟩ := alike.skip concerned
      obtain ⟨hmatches, hreceived⟩ := ih hplay
      rw [List.filter_cons_of_neg (by simp [concerned])]
      refine ⟨hmatches, ?_⟩
      rw [received, hhanded, hreceived, List.nil_append]

theorem dropped_eq (alike : Matches name s t) : s.dropped name = t.dropped name := by
  unfold dropped
  rw [alike.get?_eq]

end Matches

end Subscribers

namespace Subscribers

/-! ## The account -/

/-- The publisher gets back the numbers from 1 on. A reader that joins after some events gets events
with ascending numbers above theirs, each as it was published; those that it got, those that it
missed and those that are pending are all that were published since. It misses events only if more
are pending than the ring holds, and then goes on with the oldest in the ring. What it gets does not
depend on what other subscribers do. Numbers have 64 bits, so they ascend as long as there are not
more events than that. -/
theorem deliveries_accounted_for (capacity : Nat) (before during : List BusMove) (name : String)
    (keeps : ∀ move ∈ during, move.replaces name = false) :
    let ring := (EventBus.new capacity).ring
    let joins := ((start capacity).playAll before).play (.subscribe name)
    let alone := ((start capacity).playAll (before.filter (·.concerns name))).play (.subscribe name)
    let now := joins.playAll during
    let ledger := BusMove.events before ++ BusMove.events during
    let joined := (BusMove.events before).length
    let got := joins.received name during
    let behind := joined + got.length + now.dropped name
    (∃ k, ring = 2 ^ k ∧ max capacity 1 ≤ ring ∧ ∀ j, max capacity 1 ≤ 2 ^ j → ring ≤ 2 ^ j) ∧
    (start capacity).numbers (before ++ .subscribe name :: during) =
      (List.range' 1 ledger.length).map UInt64.ofNat ∧
    (∃ places : List Nat, got.map some = places.map (numbered ledger) ∧
      places.Pairwise (· < ·) ∧ ∀ place ∈ places, joined < place ∧ place ≤ ledger.length) ∧
    (ledger.length < UInt64.size → (got.map (·.sequence.toNat)).Pairwise (· < ·) ∧
      ∀ event ∈ got, joined < event.sequence.toNat) ∧
    (∀ event, got.getLast? = some event → numbered ledger behind = some event) ∧
    behind + now.pending name = ledger.length ∧
    (now.receive name).1 = (if now.pending name = 0 then none
      else numbered ledger (ledger.length - min (now.pending name) ring + 1)) ∧
    ((now.receive name).1.isSome = true ↔ 0 < now.pending name) ∧
    (now.receive name).2.dropped name = now.dropped name + (now.pending name - ring) ∧
    ((∀ first rest, during = first ++ .receive name :: rest →
        (joins.playAll first).pending name ≤ ring) →
      now.dropped name = 0 ∧
        got.map some = (List.range' (joined + 1) got.length).map (numbered ledger)) ∧
    alone.received name (during.filter (·.concerns name)) = got ∧
    (alone.playAll (during.filter (·.concerns name))).dropped name = now.dropped name := by
  intro ring joins alone now ledger joined got behind
  obtain ⟨final, attends, unmissed⟩ := (attends_subscribe capacity name before).playAll keeps
  have attends : Attends capacity joined name ledger got now final := attends
  have accounts := attends.accounts
  have hbehind : final.position = behind := by rw [accounts.position_eq, ← attends.dropped_eq]
  obtain ⟨places, hplaces, ascending, bounded⟩ := accounts.places
  have alike : Matches name joins alone :=
    (Matches.playAll (⟨rfl, rfl⟩ : Matches name (start capacity) (start capacity)) before).1.play
      (by simp [BusMove.concerns])
  obtain ⟨hmatches, hreceived⟩ := alike.playAll during
  refine ⟨ring_new capacity, ?_, ⟨places, hplaces, ascending, fun place hplace => ?_⟩,
    accounts.ascending, fun event hevent => hbehind ▸ accounts.last event hevent,
    attends.accounted, attends.receive_eq.1, attends.isSome_receive, attends.receive_eq.2,
    fun roomy => ?_, hreceived.symm, hmatches.dropped_eq.symm⟩
  · rw [numbers_eq, sequences_stampAll, BusMove.events_append]
    rfl
  · exact ⟨(bounded place hplace).1, Nat.le_trans (bounded place hplace).2 accounts.position_le⟩
  · have nothing : final.dropped = 0 := unmissed roomy
    exact ⟨attends.dropped_eq.trans nothing, accounts.consecutive nothing⟩

/-- A reader joins after one event, and falls behind a ring of two events twice, while others come
and go. -/
def lagging : List BusMove :=
  [.publish (.stale "two"), .receive "quick", .attach "handler", .publish (.stale "three"),
    .publish (.stale "four"), .idle, .publish (.stale "five"), .receive "slow",
    .publish (.stale "six"), .unsubscribe "quick", .publish (.stale "seven"), .receive "slow"]

theorem deliveries_accounted_for_lagging :
    let before : List BusMove := [.publish (.stale "one"), .subscribe "quick"]
    let joins := ((start 2).playAll before).play (.subscribe "slow")
    let now := joins.playAll lagging
    (∀ move ∈ lagging, move.replaces "slow" = false) ∧
      (joins.received "slow" lagging).map (fun event => (event.sequence, event.message)) =
        [(4, some "four"), (6, some "six")] ∧
      now.dropped "slow" = 3 ∧ 1 + 2 + 3 + now.pending "slow" = 7 ∧
      (start 2).numbers (before ++ .subscribe "slow" :: lagging) = [1, 2, 3, 4, 5, 6, 7] ∧
      (((start 2).play (.publish (.stale "one"))).play (.subscribe "slow")).received "slow"
        (lagging.filter (·.concerns "slow")) = joins.received "slow" lagging := by
  intro before joins now
  have keeps : ∀ move ∈ lagging, move.replaces "slow" = false := by decide
  have got : (joins.received "slow" lagging).map (fun event => (event.sequence, event.message)) =
      [(4, some "four"), (6, some "six")] := by decide +kernel
  have missed : now.dropped "slow" = 3 := by decide +kernel
  obtain ⟨-, numbers, -, -, -, accounted, -, -, -, -, alone, -⟩ :=
    deliveries_accounted_for 2 before lagging "slow" keeps
  have two : (joins.received "slow" lagging).length = 2 := by
    rw [← List.length_map, got]
    rfl
  refine ⟨keeps, got, missed, ?_, numbers, alone⟩
  rw [← two, ← missed]
  exact accounted

end Subscribers

end FeatureFlags
