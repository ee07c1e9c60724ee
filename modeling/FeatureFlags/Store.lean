import FeatureFlags.Sync.Payload

/-!
# The store of the current configuration

The store holds the current snapshot. Each replacement begins the next generation; the generations
count from 1, and 0 stands for a store that never held anything. A snapshot never changes, so
whoever took it from the store keeps it as it was.
-/

namespace FeatureFlags

/-- The current snapshot, if there is one. -/
structure FlagStore where
  snapshot : Option Snapshot := none

namespace FlagStore

instance : Inhabited FlagStore := ⟨{}⟩

/-- The definition of a flag in the current snapshot. -/
def get? (store : FlagStore) (key : String) : Option FlagDefinition :=
  store.snapshot.bind (·.get? key)

/-- The current set of flags. -/
def set? (store : FlagStore) : Option FlagSet := store.snapshot.map (·.set)

def hasSnapshot (store : FlagStore) : Bool := store.snapshot.isSome

/-- The generation of the current snapshot. -/
def generation (store : FlagStore) : Nat := (store.snapshot.map (·.generation)).getD 0

/-- The generation that the next replacement begins. -/
def nextGeneration (store : FlagStore) : Nat := store.generation + 1

/-- The snapshot that a set becomes when it is published next. -/
def stamp (store : FlagStore) (set : FlagSet) (payload : SyncPayload) : Snapshot :=
  ⟨set, payload.version, store.nextGeneration, payload.metadata⟩

/-- Publishes a set that came with an update. -/
def replace (store : FlagStore) (set : FlagSet) (payload : SyncPayload) : FlagStore :=
  ⟨some (store.stamp set payload)⟩

end FlagStore

end FeatureFlags
