import FeatureFlags.Proofs.Cache.Bounds
import Mathlib.Data.Finset.Card

/-!
# The least recently used entry

A cache of one shard evicts exactly the entry that was not used for the longest time. What it holds
is said by the calls so far, without the cache: `CacheCall.lastPut` is the entry that was last
accepted under a key, and `CacheCall.uses` lists the keys in the order in which they were put or
found. A key is found if fewer other keys were used since its own last use than there is room for
(`ResolutionCache.exactly_least_recently_used`).

The order of the entries in a shard is that of the last uses of their keys (`byLastUse`), cut off at
the capacity (`CacheShard.Recalls`). A key stands as far back in it as other keys were used since
(`mem_take_byLastUse_iff`).
-/

namespace FeatureFlags

/-! ## Keys by their last use -/

section

variable {α : Type} [DecidableEq α]

/-- The keys of a list of uses, the last use first, each once and in the order of their last
uses. -/
def byLastUse : List α → List α
  | [] => []
  | key :: uses => key :: (byLastUse uses).filter (· ≠ key)

/-- The number of other keys that were used since the last use of a key. -/
def othersSince (key : α) (uses : List α) : Nat := (uses.takeWhile (· ≠ key)).toFinset.card

theorem mem_byLastUse {key : α} {uses : List α} : key ∈ byLastUse uses ↔ key ∈ uses := by
  induction uses with
  | nil => simp [byLastUse]
  | cons first uses ih =>
    by_cases h : key = first <;> simp [byLastUse, h, ih]

theorem nodup_byLastUse (uses : List α) : (byLastUse uses).Nodup := by
  induction uses with
  | nil => exact List.nodup_nil
  | cons first uses ih =>
    refine List.nodup_cons.2 ⟨by simp, ih.filter _⟩

theorem takeWhile_filter {first key : α} (h : first ≠ key) (keys : List α) :
    (keys.filter (· ≠ first)).takeWhile (· ≠ key) =
      (keys.takeWhile (· ≠ key)).filter (· ≠ first) := by
  induction keys with
  | nil => rfl
  | cons k keys ih =>
    by_cases hk : k = key
    · subst hk
      simp [Ne.symm h]
    · by_cases hfirst : k = first
      · subst hfirst
        simpa [hk] using ih
      · simpa [hk, hfirst] using ih

/-- What stands before a key in the order of last uses are the keys that were used since. -/
theorem mem_takeWhile_byLastUse {key other : α} {uses : List α} :
    other ∈ (byLastUse uses).takeWhile (· ≠ key) ↔ other ∈ uses.takeWhile (· ≠ key) := by
  induction uses with
  | nil => rfl
  | cons first uses ih =>
    by_cases h : first = key
    · simp [byLastUse, h]
    · rw [byLastUse, List.takeWhile_cons_of_pos (by simpa using h),
        List.takeWhile_cons_of_pos (by simpa using h), takeWhile_filter h, List.mem_cons,
        List.mem_cons, List.mem_filter, ih]
      by_cases same : other = first <;> simp [same]

theorem mem_take_iff {key : α} {keys : List α} {n : Nat} :
    key ∈ keys.take n ↔ key ∈ keys ∧ (keys.takeWhile (· ≠ key)).length < n := by
  induction keys generalizing n with
  | nil => simp
  | cons first keys ih =>
    cases n with
    | zero => simp
    | succ n =>
      by_cases h : first = key
      · simp [h]
      · simp [h, Ne.symm h, ih]

/-- A key is among the `n` keys that were used last if fewer other ones were used since its last
use. -/
theorem mem_take_byLastUse_iff {key : α} {uses : List α} {n : Nat} :
    key ∈ (byLastUse uses).take n ↔ key ∈ uses ∧ othersSince key uses < n := by
  have before : ((byLastUse uses).takeWhile (· ≠ key)).toFinset =
      (uses.takeWhile (· ≠ key)).toFinset := by
    ext other
    rw [List.mem_toFinset, List.mem_toFinset, mem_takeWhile_byLastUse]
  have distinct : ((byLastUse uses).takeWhile (· ≠ key)).Nodup :=
    (nodup_byLastUse uses).sublist (List.takeWhile_sublist _)
  rw [mem_take_iff, mem_byLastUse, othersSince, ← before, List.toFinset_card_of_nodup distinct]

/-- To move a key to the front of the first ones is to move it to the front of all. -/
theorem take_filter_take {keys : List α} (distinct : keys.Nodup) (key : α) (n : Nat) :
    ((keys.take (n + 1)).filter (· ≠ key)).take n = (keys.filter (· ≠ key)).take n := by
  induction keys generalizing n with
  | nil => rfl
  | cons first keys ih =>
    obtain ⟨fresh, distinct⟩ := List.nodup_cons.1 distinct
    rw [List.take_succ_cons]
    by_cases h : first = key
    · subst h
      have others : keys.filter (· ≠ first) = keys :=
        List.filter_eq_self.2 fun k hk => by
          have : k ≠ first := fun same => fresh (same ▸ hk)
          simpa using this
      have others' : (keys.take n).filter (· ≠ first) = keys.take n :=
        List.filter_eq_self.2 fun k hk => by
          have : k ≠ first := fun same => fresh (same ▸ List.mem_of_mem_take hk)
          simpa using this
      rw [List.filter_cons_of_neg (by simp), List.filter_cons_of_neg (by simp), others, others',
        List.take_take, Nat.min_self]
    · rw [List.filter_cons_of_pos (by simpa using h), List.filter_cons_of_pos (by simpa using h)]
      cases n with
      | zero => rfl
      | succ n => rw [List.take_succ_cons, List.take_succ_cons, ih distinct]

end

/-! ## What the calls so far say -/

namespace CacheCall

/-- The generation that calls lead to, the last call first. -/
def generationAfter : List CacheCall → Nat
  | [] => 0
  | invalidate generation :: _ => generation
  | _ :: past => generationAfter past

/-- The entry that was accepted last under a key, since everything was dropped. -/
def lastPut (key : CacheKey) : List CacheCall → Option CachedResolution
  | [] => none
  | put k entry :: past =>
    if k = key ∧ entry.generation = generationAfter past then some entry else lastPut key past
  | get _ _ :: past => lastPut key past
  | invalidate _ :: _ => none

/-- The entry that a lookup finds, by the uses so far. -/
def recalled (capacity : Nat) (uses : List CacheKey) (past : List CacheCall) (key : CacheKey)
    (generation : Nat) : Option CachedResolution :=
  if generation = generationAfter past ∧ othersSince key uses < capacity then lastPut key past
  else none

/-- The keys that were put or found since everything was dropped, the last one first. -/
def uses (capacity : Nat) : List CacheCall → List CacheKey
  | [] => []
  | put key entry :: past =>
    if entry.generation = generationAfter past then key :: uses capacity past
    else uses capacity past
  | get key generation :: past =>
    if (recalled capacity (uses capacity past) past key generation).isSome then
      key :: uses capacity past
    else uses capacity past
  | invalidate _ :: _ => []

/-- Whether a call looks something up. -/
def isLookup : CacheCall → Bool
  | get _ _ => true
  | _ => false

variable {capacity : Nat} {past : List CacheCall} {key : CacheKey} {entry : CachedResolution}

/-- What was accepted is of the present generation. -/
theorem generation_of_lastPut (h : lastPut key past = some entry) :
    entry.generation = generationAfter past := by
  induction past with
  | nil => cases h
  | cons call past ih =>
    cases call with
    | put k newer =>
      rw [lastPut] at h
      split at h
      · rename_i accepted
        cases h
        exact accepted.2
      · exact ih h
    | get k generation => exact ih h
    | invalidate generation => cases h

/-- What was accepted was used. -/
theorem mem_uses_of_lastPut (h : lastPut key past = some entry) : key ∈ uses capacity past := by
  induction past with
  | nil => cases h
  | cons call past ih =>
    cases call with
    | put k newer =>
      rw [lastPut] at h
      rw [uses]
      split at h
      · rename_i accepted
        rw [if_pos accepted.2, accepted.1]
        exact List.mem_cons_self
      · split
        · exact List.mem_cons_of_mem _ (ih h)
        · exact ih h
    | get k generation =>
      rw [uses]
      split
      · exact List.mem_cons_of_mem _ (ih h)
      · exact ih h
    | invalidate generation => cases h

end CacheCall

/-! ## A shard in the order of uses -/

namespace CacheShard

variable {shard : CacheShard} {uses : List CacheKey} {key : CacheKey} {entry : CachedResolution}
  {last last' : CacheKey → Option CachedResolution}

/-- A shard holds the keys that were used last, in the order of their last uses, each with the entry
that was put last under it. -/
structure Recalls (shard : CacheShard) (uses : List CacheKey)
    (last : CacheKey → Option CachedResolution) : Prop where
  keys : shard.entries.map (·.1) = (byLastUse uses).take shard.capacity
  entries : ∀ e ∈ shard.entries, last e.1 = some e.2

theorem map_others (shard : CacheShard) (key : CacheKey) :
    (shard.others key).map (·.1) = (shard.entries.map (·.1)).filter (· ≠ key) := by
  rw [List.filter_map, others]
  congr 2
  funext e
  by_cases h : e.1 = key <;> simp [h]

namespace Recalls

theorem within (recalls : shard.Recalls uses last) : shard.entries.length ≤ shard.capacity := by
  rw [← List.length_map (·.1), recalls.keys]
  exact List.length_take_le _ _

/-- An entry is found if fewer other keys were used since its own last use than there is room
for. -/
theorem find?_eq_some_iff (recalls : shard.Recalls uses last) :
    shard.find? key = some entry ↔
      last key = some entry ∧ key ∈ uses ∧ othersSince key uses < shard.capacity := by
  rw [← mem_take_byLastUse_iff, ← recalls.keys]
  constructor
  · intro found
    have he := mem_of_find? found
    exact ⟨recalls.entries _ he, List.mem_map.2 ⟨_, he, rfl⟩⟩
  · rintro ⟨hlast, hkey⟩
    obtain ⟨e, he, rfl⟩ := List.mem_map.1 hkey
    cases found : shard.find? e.1 with
    | none => exact absurd rfl (find?_eq_none_iff.1 found e he)
    | some other => rw [← recalls.entries _ (mem_of_find? found), hlast]

/-- An entry that is put comes to the front. -/
theorem put (recalls : shard.Recalls uses last) (room : 0 < shard.capacity)
    (now : last' key = some entry) (unchanged : ∀ k, k ≠ key → last' k = last k) :
    (shard.put key entry).Recalls (key :: uses) last' where
  keys := by
    obtain ⟨n, hn⟩ := Nat.exists_eq_succ_of_ne_zero (Nat.ne_of_gt room)
    change (List.take shard.capacity _).map _ = List.take shard.capacity _
    rw [hn, List.take_succ_cons, List.map_cons, List.map_take, map_others, recalls.keys, hn,
      take_filter_take (nodup_byLastUse uses), byLastUse, List.take_succ_cons]
  entries e he := by
    rcases List.mem_cons.1 (List.mem_of_mem_take he) with rfl | he
    · exact now
    · obtain ⟨he, hkey⟩ := List.mem_filter.1 he
      rw [unchanged e.1 (bne_iff_ne.1 hkey)]
      exact recalls.entries e he

end Recalls

end CacheShard

/-! ## The cache by the calls so far -/

namespace ResolutionCache

open CacheCall

variable {capacity : Nat} {past : List CacheCall} {cache : ResolutionCache} {shard : CacheShard}

/-- The least capacities have one shard. -/
theorem shares_of_le (positive : 1 ≤ capacity) (small : capacity ≤ 127) :
    shares capacity = [capacity] := by
  have count : shardCount capacity = 1 := by
    have quotient : capacity / 64 ≤ 1 := by omega
    exact Nat.max_eq_left ((Nat.min_le_left _ _).trans quotient)
  rw [shares, if_neg (by omega), count]
  simp [List.range_succ, Nat.mod_one]

theorem modify_of_single (single : cache.shards = [shard]) (key : CacheKey)
    (f : CacheShard → CacheShard) : (cache.modify key f).shards = [f shard] := by
  rw [modify, index, single, List.length_singleton, Nat.mod_one]
  rfl

theorem shard?_of_single (single : cache.shards = [shard]) (key : CacheKey) :
    cache.shard? key = some shard := by
  rw [shard?, index, single, List.length_singleton, Nat.mod_one]
  rfl

/-- How a cache of one shard stands to the calls so far. -/
structure Recalls (capacity : Nat) (past : List CacheCall) (cache : ResolutionCache) : Prop where
  generation : cache.generation = generationAfter past
  shard : ∃ shard, cache.shards = [shard] ∧ shard.capacity = capacity ∧
    shard.Recalls (uses capacity past) (lastPut · past)

namespace Recalls

/-- For the present generation, a lookup finds what the shard holds. -/
theorem find?_of_single (recalls : cache.Recalls capacity past) (single : cache.shards = [shard])
    (order : shard.Recalls (uses capacity past) (lastPut · past)) (key : CacheKey) :
    cache.find? key cache.generation = shard.find? key := by
  rw [find?, if_pos rfl, shard?_of_single single, Option.bind_some]
  cases found : shard.find? key with
  | none => rfl
  | some entry =>
    have accepted := order.entries _ (CacheShard.mem_of_find? found)
    rw [Option.filter_some, if_pos]
    rw [recalls.generation, beq_iff_eq]
    exact generation_of_lastPut accepted

/-- A lookup finds what is said by the calls so far. -/
theorem find?_eq (recalls : cache.Recalls capacity past) (key : CacheKey) (generation : Nat) :
    cache.find? key generation = recalled capacity (uses capacity past) past key generation := by
  obtain ⟨shard, single, room, order⟩ := recalls.shard
  rw [recalled, ← recalls.generation]
  by_cases present : generation = cache.generation
  · rw [present, recalls.find?_of_single single order]
    refine Option.ext fun entry => ?_
    rw [order.find?_eq_some_iff, room]
    constructor
    · rintro ⟨hlast, -, near⟩
      rw [if_pos ⟨rfl, near⟩, hlast]
    · intro h
      split at h
      · rename_i near
        exact ⟨h, mem_uses_of_lastPut h, near.2⟩
      · cases h
  · rw [find?, if_neg present, if_neg fun h => present h.1]

theorem put (recalls : cache.Recalls capacity past) (positive : 0 < capacity) (key : CacheKey)
    (entry : CachedResolution) : (cache.put key entry).Recalls capacity (.put key entry :: past) := by
  obtain ⟨shard, single, room, order⟩ := recalls.shard
  refine ⟨(put_generation cache key entry).trans recalls.generation, ?_⟩
  rw [ResolutionCache.put, uses, recalls.generation]
  by_cases accepted : entry.generation = generationAfter past
  · rw [if_pos accepted, if_pos accepted]
    refine ⟨shard.put key entry, modify_of_single single key _, room, ?_⟩
    refine order.put (room ▸ positive) ?_ fun k hk => ?_
    · simp only [lastPut, accepted, and_self, if_true]
    · simp only [lastPut, Ne.symm hk, false_and, if_false]
  · rw [if_neg accepted, if_neg accepted]
    refine ⟨shard, single, room, ?_⟩
    simpa only [lastPut, accepted, and_false, if_false] using order

theorem get (recalls : cache.Recalls capacity past) (positive : 0 < capacity) (key : CacheKey)
    (generation : Nat) :
    (cache.get key generation).2.Recalls capacity (.get key generation :: past) := by
  obtain ⟨shard, single, room, order⟩ := recalls.shard
  refine ⟨(get_generation cache key generation).trans recalls.generation, ?_⟩
  rw [get_snd_shards, uses, ← recalls.find?_eq]
  by_cases present : generation = cache.generation
  · rw [if_pos present, present, recalls.find?_of_single single order]
    refine ⟨shard.touch key, modify_of_single single key _, ?_⟩
    cases found : shard.find? key with
    | some entry =>
      -- To use the entry is to put it again.
      rw [CacheShard.touch_eq_put order.within found]
      have accepted := order.entries _ (CacheShard.mem_of_find? found)
      exact ⟨room, order.put (room ▸ positive) accepted fun k _ => rfl⟩
    | none =>
      rw [CacheShard.touch_of_find?_eq_none found]
      exact ⟨room, order⟩
  · rw [if_neg present]
    have missed : cache.find? key generation = none := by rw [find?, if_neg present]
    rw [missed]
    exact ⟨shard, single, room, order⟩

theorem invalidate (recalls : cache.Recalls capacity past) (generation : Nat) :
    (cache.invalidate generation).Recalls capacity (.invalidate generation :: past) := by
  obtain ⟨shard, single, room, -⟩ := recalls.shard
  refine ⟨rfl, shard.clear, ?_, room, ⟨?_, fun e he => absurd he List.not_mem_nil⟩⟩
  · rw [ResolutionCache.invalidate, single]
    rfl
  · rw [uses, byLastUse, List.take_nil]
    rfl

theorem routed (positive : 1 ≤ capacity) (small : capacity ≤ 127) (route : CacheKey → Nat) :
    (routed capacity route).Recalls capacity [] := by
  refine ⟨rfl, ⟨capacity, []⟩, ?_, rfl, ⟨?_, fun e he => absurd he List.not_mem_nil⟩⟩
  · rw [ResolutionCache.routed, shares_of_le positive small]
    rfl
  · rw [uses, byLastUse, List.take_nil]
    rfl

theorem perform (recalls : cache.Recalls capacity past) (positive : 0 < capacity)
    (call : CacheCall) : (cache.perform call).Recalls capacity (call :: past) := by
  cases call with
  | put key entry => exact recalls.put positive key entry
  | get key generation => exact recalls.get positive key generation
  | invalidate generation => exact recalls.invalidate generation

theorem performAll (recalls : cache.Recalls capacity past) (positive : 0 < capacity)
    (calls : List CacheCall) :
    (cache.performAll calls).Recalls capacity (calls.reverse ++ past) := by
  induction calls generalizing cache past with
  | nil => exact recalls
  | cons call calls ih =>
    rw [List.reverse_cons, List.append_assoc]
    exact ih (recalls.perform positive call)

end Recalls

/-- Each lookup is counted, as a hit or as a miss. -/
theorem counted_performAll (cache : ResolutionCache) (calls : List CacheCall) :
    (cache.performAll calls).hits + (cache.performAll calls).misses =
      cache.hits + cache.misses + calls.countP isLookup := by
  induction calls generalizing cache with
  | nil => rfl
  | cons call calls ih =>
    have counted : (cache.perform call).hits + (cache.perform call).misses =
        cache.hits + cache.misses + if call.isLookup then 1 else 0 := by
      cases call with
      | put key entry =>
        rw [perform, put]
        split <;> rfl
      | get key generation =>
        obtain ⟨hits, misses, sum, hget⟩ := cache.get_snd key generation
        rw [perform, hget]
        exact sum
      | invalidate generation => rfl
    have later := ih (cache.perform call)
    change (performAll (cache.perform call) calls).hits +
      (performAll (cache.perform call) calls).misses = _
    rw [List.countP_cons]
    omega

/-- A cache of one shard is an exact cache of the least recently used entries. A lookup finds an
entry exactly if it is for the present generation, the entry was accepted last under the key since
everything was dropped, and fewer other keys than the capacity were put or found since the last use
of the key. Calls for other generations change neither the entries nor their order, and every lookup
is counted. -/
theorem exactly_least_recently_used (positive : 1 ≤ capacity) (small : capacity ≤ 127)
    (route : CacheKey → Nat) (calls : List CacheCall) :
    let cache := (routed capacity route).performAll calls
    let past := calls.reverse
    cache.generation = generationAfter past ∧
    (∀ key generation entry, (cache.get key generation).1 = some entry ↔
      generation = cache.generation ∧ lastPut key past = some entry ∧
        othersSince key (uses capacity past) < capacity) ∧
    (∀ key generation, uses capacity (.get key generation :: past) =
      if (cache.get key generation).1.isSome then key :: uses capacity past
      else uses capacity past) ∧
    (∀ key entry, entry.generation ≠ cache.generation → cache.put key entry = cache) ∧
    (∀ key generation, generation ≠ cache.generation →
      cache.get key generation = (none, { cache with misses := cache.misses + 1 })) ∧
    cache.hits + cache.misses = calls.countP isLookup := by
  intro cache past
  have recalls : cache.Recalls capacity past := by
    have run := (Recalls.routed positive small route).performAll positive calls
    rwa [List.append_nil] at run
  refine ⟨recalls.generation, fun key generation entry => ?_, fun key generation => ?_,
    fun key entry other => ?_, fun key generation other => ?_, ?_⟩
  · rw [get_fst, recalls.find?_eq, recalled, recalls.generation]
    constructor
    · intro h
      split at h
      · rename_i near
        exact ⟨near.1, h, near.2⟩
      · cases h
    · rintro ⟨present, hlast, near⟩
      rw [if_pos ⟨present, near⟩, hlast]
  · rw [get_fst, recalls.find?_eq, uses]
  · rw [put, if_neg other]
  · have missed : cache.find? key generation = none := by rw [find?, if_neg other]
    rw [get, missed, if_neg other]
  · rw [counted_performAll]
    exact Nat.zero_add _

/-- Two flags fill a cache. The first one is asked for again, and then a third one comes: the second
one has gone, and the first one is still there. -/
theorem exactly_least_recently_used_of_two :
    let key (name : String) : CacheKey := ⟨name, .boolean, ""⟩
    let entry : CachedResolution := ⟨1, ⟨"on", .bool true, .static, ∅⟩⟩
    let calls : List CacheCall := [.invalidate 1, .put (key "a") entry, .put (key "b") entry,
      .get (key "a") 1, .put (key "c") entry]
    let cache := (routed 2 fun _ => 7).performAll calls
    1 ≤ 2 ∧ 2 ≤ 127 ∧ (cache.get (key "a") 1).1 = some entry ∧ (cache.get (key "b") 1).1 = none ∧
      cache.hits + cache.misses = 1 := by
  intro key entry calls cache
  obtain ⟨-, found, -, -, -, counted⟩ :=
    exactly_least_recently_used (by decide : 1 ≤ 2) (by decide) (fun _ => 7) calls
  have present : 1 = cache.generation := by decide
  refine ⟨by decide, by decide, (found (key "a") 1 entry).2 ⟨present, ?_, by decide⟩, ?_, counted⟩
  · simp [calls, key, entry, lastPut, generationAfter]
  · refine Option.eq_none_iff_forall_ne_some.2 fun old h => ?_
    have far : ¬ othersSince (key "b") (uses 2 calls.reverse) < 2 := by decide
    exact far ((found (key "b") 1 old).1 h).2.2

end ResolutionCache

end FeatureFlags
