import FeatureFlags.Proofs.Bus.Numbers
import Mathlib.Algebra.Group.Nat.Defs
import Mathlib.Data.List.Basic

/-!
# The ring and a subscription

The ledger of a bus lists all events that were published on it, and the ring holds the newest ones.

* `getElem?_recent_publishAll` says which events the ring holds, and `receive_publishAll` what comes
  of asking for the next one: it is the next in the ledger, or the oldest in the ring if that one is
  not there any more;
* `Accounts` relates a subscription to the events that it has received. It is kept by every event
  that is published (`Accounts.publish`) and by every request for the next one (`Accounts.receive`).
-/

namespace FeatureFlags

/-! ## The size of the ring -/

open private Nat.nextPowerOfTwo.go from Init.Data.Nat.Power2.Basic

theorem le_nextPowerOfTwo (n : Nat) : n ≤ n.nextPowerOfTwo := by
  have reaches (p : Nat) (h : 0 < p) : n ≤ Nat.nextPowerOfTwo.go n p h := by
    fun_induction Nat.nextPowerOfTwo.go n p h with
    | case1 p h below ih => exact ih
    | case2 p h above => exact Nat.le_of_not_lt above
  exact reaches 1 Nat.one_pos

/-- No power of two that is large enough is smaller. -/
theorem nextPowerOfTwo_le {n k : Nat} (enough : n ≤ 2 ^ k) : n.nextPowerOfTwo ≤ 2 ^ k := by
  have stops (p : Nat) (h : 0 < p) (power : ∃ j, p = 2 ^ j) (within : p ≤ 2 ^ k) :
      Nat.nextPowerOfTwo.go n p h ≤ 2 ^ k := by
    fun_induction Nat.nextPowerOfTwo.go n p h with
    | case1 p h below ih =>
      obtain ⟨j, rfl⟩ := power
      have hlt : j < k := (Nat.pow_lt_pow_iff_right (by decide)).1 (Nat.lt_of_lt_of_le below enough)
      have hle : 2 ^ (j + 1) ≤ 2 ^ k := Nat.pow_le_pow_right Nat.two_pos hlt
      exact ih ⟨j + 1, rfl⟩ hle
    | case2 p h above => exact within
  exact stops 1 Nat.one_pos ⟨0, rfl⟩ Nat.one_le_two_pow

/-- The ring has the size of the least power of two that is as large as asked for. -/
theorem EventBus.ring_new (capacity : Nat) :
    ∃ k, (new capacity).ring = 2 ^ k ∧ max capacity 1 ≤ (new capacity).ring ∧
      ∀ j, max capacity 1 ≤ 2 ^ j → (new capacity).ring ≤ 2 ^ j := by
  obtain ⟨k, hk⟩ := Nat.isPowerOfTwo_nextPowerOfTwo (max capacity 1)
  exact ⟨k, hk, le_nextPowerOfTwo _, fun j => nextPowerOfTwo_le⟩

/-! ## The ring and the ledger -/

namespace EventBus

/-- The event with a number, counted from 1 on, as subscribers see it. -/
def numbered (ledger : List ProviderEvent) (number : Nat) : Option ProviderEvent :=
  ledger[number - 1]?.map fun event => { event with sequence := UInt64.ofNat number }

variable {capacity : Nat} {ledger : List ProviderEvent}

/-- An event keeps its number when others are published after it. -/
theorem numbered_append {number : Nat} (positive : 0 < number) (h : number ≤ ledger.length)
    (later : List ProviderEvent) : numbered (ledger ++ later) number = numbered ledger number := by
  unfold numbered
  rw [List.getElem?_append_left (by omega)]

theorem isSome_numbered {number : Nat} (positive : 0 < number) (h : number ≤ ledger.length) :
    (numbered ledger number).isSome = true := by
  unfold numbered
  rw [List.getElem?_eq_getElem (by omega)]
  rfl

theorem sequence_of_numbered {number : Nat} {event : ProviderEvent}
    (h : numbered ledger number = some event) : event.sequence = UInt64.ofNat number := by
  obtain ⟨published, -, rfl⟩ := Option.map_eq_some_iff.1 h
  rfl

theorem getElem?_stampAll (bus : EventBus) (events : List ProviderEvent) (i : Nat) :
    (bus.stampAll events)[i]? = events[i]?.map fun event =>
      { event with sequence := UInt64.ofNat (bus.published + i + 1) } := by
  induction events generalizing bus i with
  | nil => rfl
  | cons event events ih =>
    cases i with
    | zero => rfl
    | succ i =>
      rw [stampAll, List.getElem?_cons_succ, List.getElem?_cons_succ, ih, published_publish,
        Nat.add_right_comm bus.published 1 i, Nat.add_assoc bus.published i 1]

theorem sequences_stampAll (bus : EventBus) (events : List ProviderEvent) :
    (bus.stampAll events).map (·.sequence) =
      (List.range' (bus.published + 1) events.length).map UInt64.ofNat := by
  induction events generalizing bus with
  | nil => rfl
  | cons event events ih =>
    rw [stampAll, List.map_cons, ih, published_publish, List.length_cons, List.range'_succ,
      List.map_cons]
    rfl

@[simp] theorem published_new (capacity : Nat) : (new capacity).published = 0 := rfl

/-- The event `i` places before the newest one, if the ring reaches back to it. -/
theorem getElem?_recent_publishAll {i : Nat} (kept : i < (new capacity).ring)
    (there : i < ledger.length) :
    ((new capacity).publishAll ledger).recent[i]? = numbered ledger (ledger.length - i) := by
  have hlength : i < ((new capacity).stampAll ledger).length := by rwa [length_stampAll]
  rw [recent_publishAll _ _ (Nat.zero_le _), show (new capacity).recent = [] from rfl,
    List.append_nil, List.getElem?_take_of_lt kept, List.getElem?_reverse hlength, length_stampAll,
    getElem?_stampAll, published_new, numbered, Nat.zero_add]
  congr 1
  · funext event
    congr 2
    omega
  · congr 1
    omega

/-- What comes of asking for the next event: those that the ring does not reach back to are
missed. -/
theorem receive_publishAll (s : Subscription) (within : s.position ≤ ledger.length) :
    ((new capacity).publishAll ledger).receive s =
      if s.position = ledger.length then (none, s)
      else
        let missed := ledger.length - s.position - (new capacity).ring
        (numbered ledger (s.position + missed + 1),
          ⟨s.position + missed + 1, s.dropped + missed⟩) := by
  have roomy : 0 < (new capacity).ring := ring_new_pos capacity
  have hmissed : ledger.length - (new capacity).ring - s.position =
      ledger.length - s.position - (new capacity).ring := by omega
  unfold receive catchUp
  dsimp only
  rw [ring_publishAll, published_publishAll, published_new, Nat.zero_add, hmissed]
  split
  · rename_i behind
    have hback : ledger.length - (ledger.length - 1 - (s.position +
        (ledger.length - s.position - (new capacity).ring))) =
        s.position + (ledger.length - s.position - (new capacity).ring) + 1 := by omega
    rw [if_neg (by omega), getElem?_recent_publishAll (by omega) (by omega), hback]
  · rename_i level
    have hposition : s.position = ledger.length := by omega
    rw [if_pos hposition, hposition, Nat.sub_self, Nat.zero_sub, ← hposition]
    rfl

end EventBus

/-! ## One subscription -/

open EventBus

/-- How the events that a subscription has received relate to those that were published, after it
joined behind so many of them. -/
structure Accounts (ledger : List ProviderEvent) (joined : Nat) (received : List ProviderEvent)
    (s : Subscription) : Prop where
  position_eq : s.position = joined + received.length + s.dropped
  position_le : s.position ≤ ledger.length
  /-- Each event that was received has a number of its own, in ascending order. -/
  places : ∃ places : List Nat, received.map some = places.map (numbered ledger) ∧
    places.Pairwise (· < ·) ∧ ∀ place ∈ places, joined < place ∧ place ≤ s.position
  /-- The last event that was received is the last one that lies behind the subscription. -/
  last : ∀ event, received.getLast? = some event → numbered ledger s.position = some event
  /-- As long as nothing is missed, the numbers follow one another. -/
  consecutive : s.dropped = 0 →
    received.map some = (List.range' (joined + 1) received.length).map (numbered ledger)

namespace Accounts

variable {capacity joined : Nat} {ledger received : List ProviderEvent} {s : Subscription}

/-- A subscription begins with the next event. -/
theorem subscribe (capacity : Nat) (ledger : List ProviderEvent) :
    Accounts ledger ledger.length [] (((new capacity).publishAll ledger).subscribe) := by
  have hposition : (((new capacity).publishAll ledger).subscribe).position = ledger.length := by
    unfold EventBus.subscribe
    rw [published_publishAll, published_new, Nat.zero_add]
  exact {
    position_eq := hposition
    position_le := Nat.le_of_eq hposition
    places := ⟨[], rfl, .nil, by simp⟩
    last := fun _ h => by cases h
    consecutive := fun _ => rfl }

theorem map_numbered_append {places : List Nat}
    (bounded : ∀ place ∈ places, 0 < place ∧ place ≤ ledger.length) (later : List ProviderEvent) :
    places.map (numbered (ledger ++ later)) = places.map (numbered ledger) :=
  List.map_congr_left fun place hplace =>
    numbered_append (bounded place hplace).1 (bounded place hplace).2 later

/-- What was received stays what it is when further events are published. -/
theorem publish (accounts : Accounts ledger joined received s) (later : List ProviderEvent) :
    Accounts (ledger ++ later) joined received s where
  position_eq := accounts.position_eq
  position_le := Nat.le_trans accounts.position_le (by rw [List.length_append]; omega)
  places := by
    obtain ⟨places, hmap, ascending, bounded⟩ := accounts.places
    refine ⟨places, hmap.trans (map_numbered_append (fun place hplace => ?_) later).symm, ascending,
      bounded⟩
    have := bounded place hplace
    have := accounts.position_le
    omega
  last event hlast := by
    have hposition := accounts.position_eq
    cases received with
    | nil => cases hlast
    | cons first rest =>
      rw [numbered_append (by rw [hposition, List.length_cons]; omega) accounts.position_le]
      exact accounts.last event hlast
  consecutive nothing := by
    refine (accounts.consecutive nothing).trans
      (map_numbered_append (fun place hplace => ?_) later).symm
    have := List.mem_range'_1.1 hplace
    have := accounts.position_eq
    have := accounts.position_le
    omega

/-- One request for the next event. -/
theorem receive (accounts : Accounts ledger joined received s) (capacity : Nat) :
    let answer := ((new capacity).publishAll ledger).receive s
    Accounts ledger joined (received ++ answer.1.toList) answer.2 := by
  rw [receive_publishAll s accounts.position_le]
  have hposition := accounts.position_eq
  have hle := accounts.position_le
  split
  · show Accounts ledger joined (received ++ []) s
    rw [List.append_nil]
    exact accounts
  · rename_i waiting
    have roomy : 0 < (new capacity).ring := ring_new_pos capacity
    generalize hmissed : ledger.length - s.position - (new capacity).ring = missed
    have hnumber : s.position + missed + 1 ≤ ledger.length := by omega
    obtain ⟨event, hevent⟩ := Option.isSome_iff_exists.1
      (isSome_numbered (Nat.succ_pos (s.position + missed)) hnumber)
    dsimp only
    rw [hevent, Option.toList_some]
    exact {
      position_eq := by
        dsimp only
        rw [List.length_append, List.length_singleton]
        omega
      position_le := hnumber
      places := by
        obtain ⟨places, hmap, ascending, bounded⟩ := accounts.places
        refine ⟨places ++ [s.position + missed + 1], ?_, ?_, fun place hplace => ?_⟩
        · rw [List.map_append, List.map_append, hmap, List.map_singleton, List.map_singleton,
            hevent]
        · refine List.pairwise_append.2
            ⟨ascending, List.pairwise_singleton _ _, fun a ha b hb => ?_⟩
          have := (bounded a ha).2
          have := List.mem_singleton.1 hb
          omega
        · dsimp only
          rcases List.mem_append.1 hplace with hplace | hplace
          · have := bounded place hplace
            omega
          · have := List.mem_singleton.1 hplace
            omega
      last := by
        intro last hlast
        rw [List.getLast?_concat] at hlast
        exact hevent.trans hlast
      consecutive := by
        intro nothing
        dsimp only at nothing
        have hnext : s.position + missed + 1 = joined + 1 + received.length := by omega
        rw [List.map_append, accounts.consecutive (by omega), List.length_append,
          List.length_singleton, List.range'_1_concat, List.map_append, List.map_singleton,
          List.map_singleton, ← hnext, hevent] }

/-- Numbers have 64 bits, so they ascend as long as there are not more events than that. -/
theorem ascending (accounts : Accounts ledger joined received s)
    (few : ledger.length < UInt64.size) :
    (received.map (·.sequence.toNat)).Pairwise (· < ·) ∧
      ∀ event ∈ received, joined < event.sequence.toNat := by
  obtain ⟨places, hmap, ascending, bounded⟩ := accounts.places
  have hle := accounts.position_le
  have hnumbers : received.map (·.sequence.toNat) = places := by
    refine List.ext_getElem ?_ fun i hi hj => ?_
    · simpa using congrArg List.length hmap
    · have hsome : (received.map some)[i]? = (places.map (numbered ledger))[i]? := by rw [hmap]
      rw [List.length_map] at hi
      rw [List.getElem?_map, List.getElem?_map, List.getElem?_eq_getElem hi,
        List.getElem?_eq_getElem hj, Option.map_some, Option.map_some, Option.some.injEq] at hsome
      have hbound := bounded places[i] (List.getElem_mem hj)
      rw [List.getElem_map, sequence_of_numbered hsome.symm, UInt64.toNat_ofNat_of_lt' (by omega)]
  refine ⟨hnumbers ▸ ascending, fun event hevent => ?_⟩
  have hplace : event.sequence.toNat ∈ places := hnumbers ▸ List.mem_map_of_mem hevent
  exact (bounded _ hplace).1

end Accounts

end FeatureFlags
