import FeatureFlags.Digest.Murmur3
import FeatureFlags.Resolution

/-!
# The cache of resolutions

Successful resolutions are kept by flag, requested kind and fingerprint of the context. The cache
belongs to one generation of the configuration at a time: a change of the generation drops every
entry, and what was computed for another generation is neither stored nor served.

The entries are divided among shards, each with its share of the capacity. A shard keeps the entries
that were used most recently; when it is full, a new entry takes the place of the one that was not
used for the longest time.
-/

namespace FeatureFlags

/-- What a resolution is kept by. -/
structure CacheKey where
  flagKey : String
  kind : ValueKind
  fingerprint : String
  deriving DecidableEq

/-- A successful resolution, with the generation that it was computed for. -/
structure CachedResolution where
  generation : Nat
  evaluated : Evaluated

/-- A part of the cache: entries with distinct keys, the most recently used one first. -/
structure CacheShard where
  capacity : Nat
  entries : List (CacheKey × CachedResolution) := []

namespace CacheShard

/-- The entry under a key. -/
def find? (shard : CacheShard) (key : CacheKey) : Option CachedResolution :=
  shard.entries.lookup key

/-- The entries under other keys. -/
def others (shard : CacheShard) (key : CacheKey) : List (CacheKey × CachedResolution) :=
  shard.entries.filter fun e => e.1 != key

/-- Marks the entry under a key as the most recently used. -/
def touch (shard : CacheShard) (key : CacheKey) : CacheShard :=
  match shard.find? key with
  | some entry => { shard with entries := (key, entry) :: shard.others key }
  | none => shard

/-- Puts an entry in front, and drops the last one if there are too many. -/
def put (shard : CacheShard) (key : CacheKey) (entry : CachedResolution) : CacheShard :=
  { shard with entries := ((key, entry) :: shard.others key).take shard.capacity }

def clear (shard : CacheShard) : CacheShard := { shard with entries := [] }

end CacheShard

/-- A bounded cache of resolutions. -/
structure ResolutionCache where
  capacity : Nat
  shards : List CacheShard
  /-- A number for each key, by which it is assigned to a shard. -/
  route : CacheKey → Nat
  generation : Nat := 0
  hits : Nat := 0
  misses : Nat := 0

namespace ResolutionCache

/-- The number of shards: one for every 64 entries, at least one and at most 16. -/
def shardCount (capacity : Nat) : Nat := Nat.max 1 (Nat.min (capacity / 64) 16)

/-- The capacities of the shards, which differ by at most one. -/
def shares (capacity : Nat) : List Nat :=
  if capacity = 0 then []
  else
    let n := shardCount capacity
    (List.range n).map fun i => capacity / n + if i < capacity % n then 1 else 0

/-- An even assignment of keys to shards. -/
def spread (key : CacheKey) : Nat :=
  (Murmur3.hash 0 (key.flagKey ++ Named.name key.kind ++ key.fingerprint).toUTF8.toList).toNat

/-- An empty cache with an assignment of keys to shards; with capacity 0 it never holds anything. -/
def routed (capacity : Nat) (route : CacheKey → Nat) : ResolutionCache :=
  { capacity, shards := (shares capacity).map fun share => { capacity := share }, route }

/-- An empty cache with an even assignment of keys to shards. -/
def new (capacity : Nat) : ResolutionCache := routed capacity spread

def isEnabled (cache : ResolutionCache) : Bool := !cache.shards.isEmpty

/-- The number of entries. -/
def size (cache : ResolutionCache) : Nat := (cache.shards.flatMap (·.entries)).length

/-- The index of the shard of a key. -/
def index (cache : ResolutionCache) (key : CacheKey) : Nat :=
  cache.route key % cache.shards.length

/-- The shard of a key. -/
def shard? (cache : ResolutionCache) (key : CacheKey) : Option CacheShard :=
  cache.shards[cache.index key]?

/-- Changes the shard of a key. -/
def modify (cache : ResolutionCache) (key : CacheKey) (f : CacheShard → CacheShard) :
    ResolutionCache :=
  { cache with shards := cache.shards.modify (cache.index key) f }

/-- The resolution under a key for a generation, if the cache holds it. -/
def find? (cache : ResolutionCache) (key : CacheKey) (generation : Nat) :
    Option CachedResolution :=
  if generation = cache.generation then
    ((cache.shard? key).bind (·.find? key)).filter (·.generation == generation)
  else none

/-- Looks up a resolution for a generation, which counts as a use. -/
def get (cache : ResolutionCache) (key : CacheKey) (generation : Nat) :
    Option CachedResolution × ResolutionCache :=
  let found := cache.find? key generation
  let used := if generation = cache.generation then cache.modify key (·.touch key) else cache
  match found with
  | some entry => (some entry, { used with hits := used.hits + 1 })
  | none => (none, { used with misses := used.misses + 1 })

/-- Stores a resolution, unless it was computed for another generation. -/
def put (cache : ResolutionCache) (key : CacheKey) (entry : CachedResolution) : ResolutionCache :=
  if entry.generation = cache.generation then cache.modify key (·.put key entry) else cache

/-- Drops every entry and begins a generation. -/
def invalidate (cache : ResolutionCache) (generation : Nat) : ResolutionCache :=
  { cache with generation, shards := cache.shards.map CacheShard.clear }

end ResolutionCache

end FeatureFlags
