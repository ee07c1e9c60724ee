import FeatureFlags.Cache

/-!
# What a cache holds

`Holds` says that an entry is somewhere in the cache. A lookup serves only entries that the cache
holds for the generation asked for (`holds_of_get`), and takes none in (`holds_get`); `put` takes in
its own entry at most, and only for the present generation (`holds_put`); `invalidate` leaves
nothing (`not_holds_invalidate`).
-/

namespace FeatureFlags

namespace CacheShard

theorem mem_of_find? {shard : CacheShard} {key : CacheKey} {entry : CachedResolution}
    (h : shard.find? key = some entry) : (key, entry) ∈ shard.entries := by
  obtain ⟨l₁, l₂, he, -⟩ := List.lookup_eq_some_iff.1 h
  rw [he]
  exact List.mem_append_right _ List.mem_cons_self

theorem mem_of_mem_touch {shard : CacheShard} {key : CacheKey} {e : CacheKey × CachedResolution}
    (h : e ∈ (shard.touch key).entries) : e ∈ shard.entries := by
  unfold touch at h
  split at h
  · rename_i entry hf
    rcases List.mem_cons.1 h with rfl | h
    · exact mem_of_find? hf
    · exact (List.mem_filter.1 h).1
  · exact h

theorem mem_of_mem_put {shard : CacheShard} {key : CacheKey} {entry : CachedResolution}
    {e : CacheKey × CachedResolution} (h : e ∈ (shard.put key entry).entries) :
    e = (key, entry) ∨ e ∈ shard.entries := by
  rcases List.mem_cons.1 (List.mem_of_mem_take h) with rfl | h
  · exact .inl rfl
  · exact .inr (List.mem_filter.1 h).1

end CacheShard

namespace ResolutionCache

variable {cache : ResolutionCache} {key k : CacheKey} {entry e : CachedResolution}

/-- An entry is in one of the shards. -/
def Holds (cache : ResolutionCache) (key : CacheKey) (entry : CachedResolution) : Prop :=
  ∃ shard ∈ cache.shards, (key, entry) ∈ shard.entries

theorem holds_modify {f : CacheShard → CacheShard} (h : (cache.modify key f).Holds k e) :
    cache.Holds k e ∨ ∃ shard ∈ cache.shards, (k, e) ∈ (f shard).entries := by
  obtain ⟨shard, hs, he⟩ := h
  obtain ⟨i, hi⟩ := List.mem_iff_getElem?.1 hs
  have hm : (cache.modify key f).shards[i]? = _ := List.getElem?_modify f _ cache.shards i
  rw [hi] at hm
  cases ho : cache.shards[i]? with
  | none =>
    rw [ho] at hm
    cases hm
  | some old =>
    rw [ho, Option.map_eq_map, Option.map_some, Option.some.injEq] at hm
    have hold : old ∈ cache.shards := List.mem_iff_getElem?.2 ⟨i, ho⟩
    split at hm
    · exact .inr ⟨old, hold, hm ▸ he⟩
    · exact .inl ⟨old, hold, hm ▸ he⟩

/-- What the cache holds under a key for a generation is what a lookup finds. -/
theorem holds_of_find? {generation : Nat} (h : cache.find? key generation = some entry) :
    cache.Holds key entry ∧ entry.generation = generation ∧ generation = cache.generation := by
  unfold find? at h
  split at h
  · rename_i hg
    obtain ⟨h, he⟩ := Option.filter_eq_some_iff.1 h
    obtain ⟨shard, hs, hf⟩ := Option.bind_eq_some_iff.1 h
    exact ⟨⟨shard, List.mem_iff_getElem?.2 ⟨_, hs⟩, CacheShard.mem_of_find? hf⟩,
      beq_iff_eq.1 he, hg⟩
  · cases h

theorem get_fst (cache : ResolutionCache) (key : CacheKey) (generation : Nat) :
    (cache.get key generation).1 = cache.find? key generation := by
  unfold get
  dsimp only
  split <;> simp [*]

/-- A lookup serves what the cache holds for the generation asked for, if that is the present
one. -/
theorem holds_of_get {generation : Nat} (h : (cache.get key generation).1 = some entry) :
    cache.Holds key entry ∧ entry.generation = generation ∧ generation = cache.generation :=
  holds_of_find? (cache.get_fst key generation ▸ h)

theorem get_snd_shards (cache : ResolutionCache) (key : CacheKey) (generation : Nat) :
    (cache.get key generation).2.shards =
      (if generation = cache.generation then cache.modify key (·.touch key) else cache).shards := by
  unfold get
  dsimp only
  split <;> rfl

/-- A lookup takes no entry in. -/
theorem holds_get {generation : Nat} (h : (cache.get key generation).2.Holds k e) :
    cache.Holds k e := by
  unfold Holds at h
  rw [get_snd_shards] at h
  split at h
  · rcases holds_modify h with h | ⟨shard, hs, he⟩
    · exact h
    · exact ⟨shard, hs, CacheShard.mem_of_mem_touch he⟩
  · exact h

/-- `put` takes in its own entry at most, and only for the present generation. -/
theorem holds_put (h : (cache.put key entry).Holds k e) :
    cache.Holds k e ∨ k = key ∧ e = entry ∧ entry.generation = cache.generation := by
  unfold put at h
  split at h
  · rename_i hg
    rcases holds_modify h with h | ⟨shard, hs, he⟩
    · exact .inl h
    · rcases CacheShard.mem_of_mem_put he with he | he
      · cases he
        exact .inr ⟨rfl, rfl, hg⟩
      · exact .inl ⟨shard, hs, he⟩
  · exact .inl h

/-- `invalidate` leaves nothing. -/
theorem not_holds_invalidate (generation : Nat) : ¬(cache.invalidate generation).Holds k e := by
  rintro ⟨shard, hs, he⟩
  obtain ⟨old, -, rfl⟩ := List.mem_map.1 hs
  exact List.not_mem_nil he

theorem not_holds_routed (capacity : Nat) (route : CacheKey → Nat) :
    ¬(routed capacity route).Holds k e := by
  rintro ⟨shard, hs, he⟩
  obtain ⟨share, -, rfl⟩ := List.mem_map.1 hs
  exact List.not_mem_nil he

/-! ## What the operations keep -/

@[simp] theorem get_generation (cache : ResolutionCache) (key : CacheKey) (generation : Nat) :
    (cache.get key generation).2.generation = cache.generation := by
  unfold get
  dsimp only
  split <;> split <;> rfl

@[simp] theorem put_generation (cache : ResolutionCache) (key : CacheKey)
    (entry : CachedResolution) : (cache.put key entry).generation = cache.generation := by
  unfold put
  split <;> rfl

end ResolutionCache

end FeatureFlags
