import FeatureFlags.Proofs.Cache.Contents
import Mathlib.Algebra.GroupWithZero.Nat
import Mathlib.Algebra.Order.BigOperators.Group.List
import Mathlib.Algebra.Order.Group.Nat
import Mathlib.Data.List.Nodup

/-!
# The bounds of a cache

Whatever is asked of a cache, it stays within its bounds. The shares of the shards add up to the
capacity (`sum_shares`), and each shard keeps within its share, with distinct keys and entries of
the present generation (`CacheShard.Sound`). A key is only found in the shard that it is assigned
to, so that the keys of the whole cache are distinct as well (`Kept`). Every call keeps this
(`Kept.perform`), and the only entry that is ever evicted is the last one of a full shard
(`evicted_of_put`).
-/

namespace FeatureFlags

/-! ## One shard -/

namespace CacheShard

variable {shard : CacheShard} {key : CacheKey} {entry : CachedResolution} {generation : Nat}

/-- A shard within its bounds: it has no more entries than room, under distinct keys, and all of
one generation. -/
structure Sound (generation : Nat) (shard : CacheShard) : Prop where
  within : shard.entries.length ≤ shard.capacity
  distinct : (shard.entries.map (·.1)).Nodup
  current : ∀ e ∈ shard.entries, e.2.generation = generation

theorem find?_eq_none_iff : shard.find? key = none ↔ ∀ e ∈ shard.entries, e.1 ≠ key := by
  rw [find?, List.lookup_eq_none_iff]
  refine forall₂_congr fun e _ => ?_
  rw [bne_iff_ne, ne_comm]

theorem others_of_find?_eq_none (absent : shard.find? key = none) :
    shard.others key = shard.entries := by
  refine List.filter_eq_self.2 fun e he => ?_
  simpa using find?_eq_none_iff.1 absent e he

/-- Without the entry under a key there is room for another one. -/
theorem length_others_lt (found : shard.find? key = some entry) :
    (shard.others key).length < shard.entries.length := by
  refine List.length_filter_lt_length_iff_exists.2 ⟨(key, entry), mem_of_find? found, ?_⟩
  simp

/-- To use an entry is to put it again. -/
theorem touch_eq_put (within : shard.entries.length ≤ shard.capacity)
    (found : shard.find? key = some entry) : shard.touch key = shard.put key entry := by
  have room : ((key, entry) :: shard.others key).length ≤ shard.capacity := by
    have := length_others_lt found
    rw [List.length_cons]
    omega
  rw [touch, found, put, List.take_of_length_le room]

theorem touch_of_find?_eq_none (absent : shard.find? key = none) : shard.touch key = shard := by
  rw [touch, absent]

theorem nodup_cons_others (distinct : (shard.entries.map (·.1)).Nodup) (key : CacheKey)
    (entry : CachedResolution) : (((key, entry) :: shard.others key).map (·.1)).Nodup := by
  rw [List.map_cons, List.nodup_cons]
  constructor
  · simp [others]
  · exact distinct.sublist (List.filter_sublist.map _)

namespace Sound

theorem put (sound : shard.Sound generation) (key : CacheKey)
    (present : entry.generation = generation) : (shard.put key entry).Sound generation where
  within := List.length_take_le _ _
  distinct := (nodup_cons_others sound.distinct key entry).sublist ((List.take_sublist _ _).map _)
  current e he := by
    obtain rfl | he := mem_of_mem_put he
    · exact present
    · exact sound.current e he

theorem touch (sound : shard.Sound generation) (key : CacheKey) :
    (shard.touch key).Sound generation := by
  cases found : shard.find? key with
  | none => rwa [touch_of_find?_eq_none found]
  | some entry =>
    rw [touch_eq_put sound.within found]
    exact sound.put key (sound.current _ (mem_of_find? found))

theorem clear (shard : CacheShard) (generation : Nat) : shard.clear.Sound generation where
  within := Nat.zero_le _
  distinct := List.nodup_nil
  current _ he := absurd he List.not_mem_nil

end Sound

/-- A use drops no entry. -/
theorem mem_touch {e : CacheKey × CachedResolution} (sound : shard.Sound generation)
    (he : e ∈ shard.entries) : e ∈ (shard.touch key).entries := by
  unfold touch
  split
  · rename_i entry found
    by_cases same : e.1 = key
    · -- Keys are distinct, so that the entry is the one that was found.
      have found' := mem_of_find? found
      have : e = (key, entry) := by
        refine List.inj_on_of_nodup_map sound.distinct he found' same
      exact this ▸ List.mem_cons_self
    · exact List.mem_cons_of_mem _ (List.mem_filter.2 ⟨he, by simpa using same⟩)
  · exact he

/-- A new key takes the place of the last one of a full shard. -/
theorem entries_put_of_full {initial : List (CacheKey × CachedResolution)}
    {last : CacheKey × CachedResolution} (absent : shard.find? key = none)
    (full : shard.entries.length = shard.capacity) (hsplit : shard.entries = initial ++ [last]) :
    (shard.put key entry).entries = (key, entry) :: initial := by
  have size : shard.capacity = initial.length + 1 := by
    rw [← full, hsplit, List.length_append, List.length_singleton]
  rw [put, others_of_find?_eq_none absent]
  change List.take shard.capacity _ = _
  rw [size, List.take_succ_cons, hsplit, List.take_left]

/-- What is evicted is the last entry of a full shard, when a new key comes in. -/
theorem evicted_of_put {e : CacheKey × CachedResolution} (sound : shard.Sound generation)
    (other : e.1 ≠ key) (held : e ∈ shard.entries) (gone : e ∉ (shard.put key entry).entries) :
    shard.find? key = none ∧ shard.entries.length = shard.capacity ∧
      shard.entries.getLast? = some e := by
  have kept : e ∈ (key, entry) :: shard.others key :=
    List.mem_cons_of_mem _ (List.mem_filter.2 ⟨held, by simpa using other⟩)
  have cut : ¬ ((key, entry) :: shard.others key).length ≤ shard.capacity := fun room =>
    gone (by rw [CacheShard.put, List.take_of_length_le room]; exact kept)
  rw [List.length_cons] at cut
  have absent : shard.find? key = none := by
    cases found : shard.find? key with
    | none => rfl
    | some old =>
      have := length_others_lt found
      have := sound.within
      omega
  have full : shard.entries.length = shard.capacity := by
    have := sound.within
    rw [others_of_find?_eq_none absent] at cut
    omega
  refine ⟨absent, full, ?_⟩
  obtain ⟨initial, last, hsplit⟩ := (List.eq_nil_or_concat' shard.entries).resolve_left
    (List.ne_nil_of_mem held)
  rw [entries_put_of_full absent full hsplit] at gone
  rw [hsplit, List.mem_append, List.mem_singleton] at held
  obtain early | rfl := held
  · exact absurd (List.mem_cons_of_mem _ early) gone
  · rw [hsplit, List.getLast?_append, List.getLast?_singleton]
    rfl

end CacheShard

/-! ## The shares -/

namespace ResolutionCache

theorem shardCount_pos (capacity : Nat) : 0 < shardCount capacity := Nat.le_max_left _ _

theorem shardCount_le {capacity : Nat} (positive : 0 < capacity) :
    shardCount capacity ≤ capacity := by
  refine Nat.max_le.2 ⟨positive, (Nat.min_le_left _ _).trans ?_⟩
  exact Nat.div_le_self capacity 64

/-- So many shares of `q`, of which the first `r` have one more, come to the whole. -/
theorem sum_range_shares (n q r : Nat) :
    ((List.range n).map fun i => q + if i < r then 1 else 0).sum = n * q + min n r := by
  induction n with
  | zero => simp
  | succ n ih =>
    rw [List.range_succ, List.map_append, List.sum_append, ih, Nat.succ_mul]
    simp only [List.map_cons, List.map_nil, List.sum_cons, List.sum_nil]
    split <;> omega

theorem sum_shares (capacity : Nat) : (shares capacity).sum = capacity := by
  unfold shares
  split
  · rename_i none_
    rw [none_]
    rfl
  · have rest := Nat.mod_lt capacity (shardCount_pos capacity)
    have parts := Nat.div_add_mod capacity (shardCount capacity)
    dsimp only
    rw [sum_range_shares, Nat.min_eq_right rest.le, parts]

example : shares 129 = [65, 64] := by decide

theorem one_le_of_mem_shares {capacity share : Nat} (h : share ∈ shares capacity) : 1 ≤ share := by
  unfold shares at h
  split at h
  · cases h
  · rename_i some_
    obtain ⟨i, -, rfl⟩ := List.mem_map.1 h
    have least := Nat.div_pos (shardCount_le (Nat.pos_of_ne_zero some_)) (shardCount_pos capacity)
    omega

theorem shares_eq_nil_iff (capacity : Nat) : shares capacity = [] ↔ capacity = 0 := by
  have count := shardCount_pos capacity
  unfold shares
  split
  · simpa
  · simp only [List.map_eq_nil_iff, List.range_eq_nil]
    omega

end ResolutionCache

/-! ## Calls of a cache -/

/-- What can be asked of a cache. -/
inductive CacheCall where
  | put (key : CacheKey) (entry : CachedResolution)
  | get (key : CacheKey) (generation : Nat)
  | invalidate (generation : Nat)

namespace ResolutionCache

/-- What a call makes of a cache. -/
def perform (cache : ResolutionCache) : CacheCall → ResolutionCache
  | .put key entry => cache.put key entry
  | .get key generation => (cache.get key generation).2
  | .invalidate generation => cache.invalidate generation

/-- What calls make of a cache, one after the other. -/
def performAll (cache : ResolutionCache) (calls : List CacheCall) : ResolutionCache :=
  calls.foldl perform cache

variable {cache : ResolutionCache} {key k : CacheKey} {entry e : CachedResolution}

/-- A lookup counts, and it uses the entry if it is for the present generation. -/
theorem get_snd (cache : ResolutionCache) (key : CacheKey) (generation : Nat) :
    ∃ hits misses, hits + misses = cache.hits + cache.misses + 1 ∧
      (cache.get key generation).2 =
        { (if generation = cache.generation then cache.modify key (·.touch key) else cache) with
          hits, misses } := by
  have kept (p : Prop) [Decidable p] :
      (if p then cache.modify key (·.touch key) else cache).hits +
        (if p then cache.modify key (·.touch key) else cache).misses =
        cache.hits + cache.misses := by
    split <;> rfl
  unfold get
  dsimp only
  split
  · exact ⟨_, _, by rw [Nat.add_right_comm, kept], rfl⟩
  · exact ⟨_, _, by rw [← Nat.add_assoc, kept], rfl⟩

/-- A shard of the changed cache was there before, or comes from the shard of the key. -/
theorem getElem?_modify {f : CacheShard → CacheShard} {i : Nat} {shard : CacheShard}
    (h : (cache.modify key f).shards[i]? = some shard) :
    cache.shards[i]? = some shard ∨
      ∃ old, cache.index key = i ∧ cache.shards[i]? = some old ∧ shard = f old := by
  have changed : (cache.modify key f).shards[i]? = _ := List.getElem?_modify f _ cache.shards i
  rw [h] at changed
  cases hold : cache.shards[i]? with
  | none =>
    rw [hold] at changed
    cases changed
  | some old =>
    rw [hold, Option.map_eq_map, Option.map_some, Option.some.injEq] at changed
    split at changed
    · rename_i same
      exact .inr ⟨old, same, rfl, changed⟩
    · exact .inl (congrArg some changed.symm)

theorem getElem?_modify_self {shard : CacheShard} (there : cache.shard? key = some shard)
    (f : CacheShard → CacheShard) :
    (cache.modify key f).shards[cache.index key]? = some (f shard) := by
  rw [shard?] at there
  rw [ResolutionCache.modify, List.getElem?_modify, there, Option.map_eq_map, Option.map_some,
    if_pos rfl]

/-- An entry that is not dropped from its shard is not dropped from the cache. -/
theorem stays_modify {f : CacheShard → CacheShard} {shard : CacheShard}
    (there : cache.shard? k = some shard) (he : (k, e) ∈ shard.entries)
    (keeps : cache.shard? key = some shard → (k, e) ∈ (f shard).entries) :
    (cache.modify key f).Holds k e := by
  by_cases same : cache.index key = cache.index k
  · have there' : cache.shard? key = some shard := by rwa [shard?, same]
    exact ⟨f shard, List.mem_of_getElem? (getElem?_modify_self there' f), keeps there'⟩
  · refine ⟨shard, List.mem_of_getElem? (i := cache.index k) ?_, he⟩
    rw [shard?] at there
    rw [ResolutionCache.modify, List.getElem?_modify, there, Option.map_eq_map, Option.map_some,
      if_neg same]

/-- How a cache is kept: each shard is within its bounds, and holds keys that are assigned to it. -/
structure Kept (cache : ResolutionCache) : Prop where
  sound : ∀ shard ∈ cache.shards, shard.Sound cache.generation
  placed : ∀ i shard, cache.shards[i]? = some shard → ∀ e ∈ shard.entries, cache.index e.1 = i

namespace Kept

theorem modify (kept : cache.Kept) {f : CacheShard → CacheShard}
    (sound : ∀ shard, shard.Sound cache.generation → (f shard).Sound cache.generation)
    (inside : ∀ shard, ∀ e ∈ (f shard).entries, e.1 = key ∨ e ∈ shard.entries) :
    (cache.modify key f).Kept where
  sound shard hshard := by
    obtain ⟨i, hi⟩ := List.mem_iff_getElem?.1 hshard
    obtain unchanged | ⟨old, -, hold, rfl⟩ := getElem?_modify hi
    · exact kept.sound shard (List.mem_of_getElem? unchanged)
    · exact sound old (kept.sound old (List.mem_of_getElem? hold))
  placed i shard hi e he := by
    have same : (cache.modify key f).index e.1 = cache.index e.1 := by
      simp [index, ResolutionCache.modify]
    rw [same]
    obtain unchanged | ⟨old, here, hold, rfl⟩ := getElem?_modify hi
    · exact kept.placed i shard unchanged e he
    · obtain rfl | he := inside old e he
      · exact here
      · exact kept.placed i old hold e he

theorem put (kept : cache.Kept) (key : CacheKey) (entry : CachedResolution) :
    (cache.put key entry).Kept := by
  unfold ResolutionCache.put
  split
  · rename_i present
    refine kept.modify (fun shard sound => sound.put key present) fun shard e he => ?_
    exact (CacheShard.mem_of_mem_put he).imp_left fun h => by rw [h]
  · exact kept

theorem get (kept : cache.Kept) (key : CacheKey) (generation : Nat) :
    (cache.get key generation).2.Kept := by
  obtain ⟨hits, misses, -, hget⟩ := cache.get_snd key generation
  rw [hget]
  split
  · have used : (cache.modify key (·.touch key)).Kept :=
      kept.modify (fun shard sound => sound.touch key) fun shard e he =>
        .inr (CacheShard.mem_of_mem_touch he)
    exact ⟨used.sound, used.placed⟩
  · exact ⟨kept.sound, kept.placed⟩

theorem invalidate (cache : ResolutionCache) (generation : Nat) :
    (cache.invalidate generation).Kept where
  sound shard hshard := by
    obtain ⟨old, -, rfl⟩ := List.mem_map.1 hshard
    exact .clear old generation
  placed i shard hi e he := by
    obtain ⟨old, -, rfl⟩ := List.mem_map.1 (List.mem_of_getElem? hi)
    cases he

theorem routed (capacity : Nat) (route : CacheKey → Nat) : (routed capacity route).Kept where
  sound shard hshard := by
    obtain ⟨share, -, rfl⟩ := List.mem_map.1 hshard
    exact .clear ⟨share, []⟩ 0
  placed i shard hi e he := by
    obtain ⟨share, -, rfl⟩ := List.mem_map.1 (List.mem_of_getElem? hi)
    cases he

/-- Every call keeps a cache within its bounds. -/
theorem perform (kept : cache.Kept) (call : CacheCall) : (cache.perform call).Kept := by
  cases call with
  | put key entry => exact kept.put key entry
  | get key generation => exact kept.get key generation
  | invalidate generation => exact .invalidate cache generation

theorem performAll (kept : cache.Kept) (calls : List CacheCall) : (cache.performAll calls).Kept := by
  induction calls generalizing cache with
  | nil => exact kept
  | cons call calls ih => exact ih (kept.perform call)

end Kept

/-! ## What the bounds come to -/

@[simp] theorem capacities_modify {f : CacheShard → CacheShard}
    (same : ∀ shard, (f shard).capacity = shard.capacity) :
    (cache.modify key f).shards.map (·.capacity) = cache.shards.map (·.capacity) := by
  refine List.ext_getElem? fun i => ?_
  rw [List.getElem?_map, List.getElem?_map, ResolutionCache.modify, List.getElem?_modify]
  cases cache.shards[i]? with
  | none => rfl
  | some shard =>
    simp only [Option.map_eq_map, Option.map_some]
    split
    · rw [same]
    · rfl

/-- The shares of the shards stay as they are. -/
theorem capacities_perform (cache : ResolutionCache) (call : CacheCall) :
    (cache.perform call).shards.map (·.capacity) = cache.shards.map (·.capacity) := by
  cases call with
  | put key entry =>
    rw [perform, put]
    split
    · exact capacities_modify fun _ => rfl
    · rfl
  | get key generation =>
    rw [perform, get_snd_shards]
    split
    · refine capacities_modify fun shard => ?_
      unfold CacheShard.touch
      split <;> rfl
    · rfl
  | invalidate generation =>
    rw [perform, invalidate, List.map_map]
    rfl

theorem capacities_performAll (cache : ResolutionCache) (calls : List CacheCall) :
    (cache.performAll calls).shards.map (·.capacity) = cache.shards.map (·.capacity) := by
  induction calls generalizing cache with
  | nil => rfl
  | cons call calls ih => exact (ih (cache.perform call)).trans (capacities_perform cache call)

namespace Kept

theorem size_le (kept : cache.Kept) : cache.size ≤ (cache.shards.map (·.capacity)).sum := by
  rw [size, List.length_flatMap]
  exact List.sum_le_sum fun shard hshard => (kept.sound shard hshard).within

/-- No two entries of the whole cache are under one key. -/
theorem nodup_keys (kept : cache.Kept) :
    ((cache.shards.flatMap (·.entries)).map (·.1)).Nodup := by
  rw [List.map_flatMap, List.nodup_flatMap]
  refine ⟨fun shard hshard => (kept.sound shard hshard).distinct, ?_⟩
  rw [List.pairwise_iff_getElem]
  intro i j hi hj less key here there
  obtain ⟨a, ha, rfl⟩ := List.mem_map.1 here
  obtain ⟨b, hb, same⟩ := List.mem_map.1 there
  have hai := kept.placed i _ (List.getElem?_eq_getElem hi) a ha
  have hbj := kept.placed j _ (List.getElem?_eq_getElem hj) b hb
  rw [same, hai] at hbj
  omega

/-- What the cache holds under a key is in the shard of the key. -/
theorem shard?_of_holds (kept : cache.Kept) (held : cache.Holds k e) :
    ∃ shard ∈ cache.shards, cache.shard? k = some shard ∧ (k, e) ∈ shard.entries := by
  obtain ⟨shard, hshard, he⟩ := held
  obtain ⟨i, hi⟩ := List.mem_iff_getElem?.1 hshard
  have here : cache.index k = i := kept.placed i shard hi _ he
  exact ⟨shard, hshard, by rw [shard?, here, hi], he⟩

/-- A lookup drops no entry. -/
theorem stays_get (kept : cache.Kept) (held : cache.Holds k e) (key : CacheKey)
    (generation : Nat) : (cache.get key generation).2.Holds k e := by
  obtain ⟨shard, hshard, there, he⟩ := kept.shard?_of_holds held
  unfold Holds
  rw [get_snd_shards]
  split
  · exact stays_modify there he fun _ => CacheShard.mem_touch (kept.sound shard hshard) he
  · exact held

/-- An entry that is put is there instead of the one under its key. -/
theorem holds_put_self (kept : cache.Kept) (held : cache.Holds k e)
    (present : entry.generation = cache.generation) : (cache.put k entry).Holds k entry := by
  obtain ⟨shard, hshard, there, he⟩ := kept.shard?_of_holds held
  have room : 0 < shard.capacity :=
    Nat.lt_of_lt_of_le (List.length_pos_of_mem he) (kept.sound shard hshard).within
  rw [ResolutionCache.put, if_pos present]
  refine ⟨shard.put k entry, List.mem_of_getElem? (getElem?_modify_self there _), ?_⟩
  rw [CacheShard.put]
  change (k, entry) ∈ List.take shard.capacity _
  rw [← Nat.sub_add_cancel room, List.take_succ_cons]
  exact List.mem_cons_self

/-- What becomes of an entry in a call: it stays, unless everything is dropped, another entry is
put under its key, or it is the last one of a full shard that a new key comes to. -/
theorem holds_perform (kept : cache.Kept) (held : cache.Holds k e) (call : CacheCall) :
    (cache.perform call).Holds k e ∨ (∃ generation, call = .invalidate generation) ∨
      (∃ entry, call = .put k entry ∧ (cache.perform call).Holds k entry) ∨
      ∃ key entry shard, call = .put key entry ∧ cache.shard? key = some shard ∧
        shard.find? key = none ∧ shard.entries.length = shard.capacity ∧
        shard.entries.getLast? = some (k, e) := by
  cases call with
  | get key generation => exact .inl (kept.stays_get held key generation)
  | invalidate generation => exact .inr (.inl ⟨generation, rfl⟩)
  | put key entry =>
    by_cases present : entry.generation = cache.generation
    · by_cases same : k = key
      · subst same
        exact .inr (.inr (.inl ⟨entry, rfl, kept.holds_put_self held present⟩))
      · by_cases stays : (cache.perform (.put key entry)).Holds k e
        · exact .inl stays
        · obtain ⟨shard, hshard, there, he⟩ := kept.shard?_of_holds held
          have gone : cache.shard? key = some shard ∧ (k, e) ∉ (shard.put key entry).entries := by
            by_contra still
            rw [not_and, not_not] at still
            refine stays ?_
            rw [ResolutionCache.perform, ResolutionCache.put, if_pos present]
            exact stays_modify there he still
          obtain ⟨absent, full, last⟩ :=
            CacheShard.evicted_of_put (kept.sound shard hshard) same he gone.2
          exact .inr (.inr (.inr ⟨key, entry, shard, rfl, gone.1, absent, full, last⟩))
    · refine .inl ?_
      rwa [ResolutionCache.perform, ResolutionCache.put, if_neg present]

end Kept

/-- A cache of any capacity stays within its bounds, however keys are assigned to shards and
whatever is asked of it. The shards share the capacity, each with room for at least one entry; the
entries are no more than the capacity, under distinct keys, and for the present generation. As long
as a shard has room no entry is evicted from it: only when a new key comes to a full shard, the last
entry has to go. -/
theorem stays_within_bounds (capacity : Nat) (route : CacheKey → Nat) (calls : List CacheCall) :
    (∀ share ∈ shares capacity, 1 ≤ share) ∧ (shares capacity).sum = capacity ∧
    (shares capacity = [] ↔ capacity = 0) ∧
    let cache := (routed capacity route).performAll calls
    cache.shards.map (·.capacity) = shares capacity ∧ cache.size ≤ capacity ∧
    ((cache.shards.flatMap (·.entries)).map (·.1)).Nodup ∧
    (∀ key entry, cache.Holds key entry → entry.generation = cache.generation) ∧
    ∀ call key entry, cache.Holds key entry →
      (cache.perform call).Holds key entry ∨ (∃ generation, call = .invalidate generation) ∨
      (∃ newer, call = .put key newer ∧ (cache.perform call).Holds key newer) ∨
      ∃ other newer shard, call = .put other newer ∧ cache.shard? other = some shard ∧
        shard.find? other = none ∧ shard.entries.length = shard.capacity ∧
        shard.entries.getLast? = some (key, entry) := by
  refine ⟨fun share => one_le_of_mem_shares, sum_shares capacity, shares_eq_nil_iff capacity, ?_⟩
  intro cache
  have kept : cache.Kept := (Kept.routed capacity route).performAll calls
  have capacities : cache.shards.map (·.capacity) = shares capacity := by
    rw [capacities_performAll, routed, List.map_map]
    exact List.map_id _
  refine ⟨capacities, ?_, kept.nodup_keys, ?_, fun call key entry held => kept.holds_perform held call⟩
  · calc cache.size ≤ (cache.shards.map (·.capacity)).sum := kept.size_le
      _ = capacity := by rw [capacities, sum_shares]
  · rintro key entry ⟨shard, hshard, he⟩
    exact (kept.sound shard hshard).current _ he

/-- A third key comes to a cache of two entries, and the one that was not used for the longest time
has to go. -/
theorem stays_within_bounds_newcomer :
    let key (name : String) : CacheKey := ⟨name, .boolean, ""⟩
    let entry : CachedResolution := ⟨1, ⟨"on", .bool true, .static, ∅⟩⟩
    let cache := (routed 2 fun _ => 7).performAll
      [.invalidate 1, .put (key "a") entry, .put (key "b") entry]
    let call : CacheCall := .put (key "c") entry
    ∃ old, cache.Holds (key "a") old ∧ ¬ (cache.perform call).Holds (key "a") old ∧
      ∃ shard, cache.shard? (key "c") = some shard ∧ shard.entries.length = shard.capacity := by
  intro key entry cache call
  obtain ⟨old, found⟩ : ∃ old, cache.find? (key "a") 1 = some old :=
    Option.isSome_iff_exists.1 (by decide)
  have held : cache.Holds (key "a") old := (holds_of_find? found).1
  have others : ∀ shard ∈ (cache.perform call).shards, ∀ e ∈ shard.entries, e.1 ≠ key "a" := by
    decide
  have gone : ¬ (cache.perform call).Holds (key "a") old :=
    fun ⟨shard, hshard, he⟩ => others shard hshard _ he rfl
  refine ⟨old, held, gone, ?_⟩
  obtain ⟨-, -, -, -, -, -, -, fate⟩ := stays_within_bounds 2 (fun _ => 7)
    [.invalidate 1, .put (key "a") entry, .put (key "b") entry]
  obtain stays | ⟨_, drop⟩ | ⟨_, again, -⟩ | ⟨other, newer, shard, comes, there, -, full, -⟩ :=
    fate (.put (key "c") entry) (key "a") old held
  · exact absurd stays gone
  · cases drop
  · injection again with same
    exact absurd same (by decide)
  · cases comes
    exact ⟨shard, there, full⟩

end ResolutionCache

end FeatureFlags
