import FeatureFlags.Flag.Snapshot
import FeatureFlags.Proofs.Dict
import FeatureFlags.Proofs.Json.Unsigned

/-!
# Flags up to the signs of zeros

Two values, metadata or flags are the same in the sense of the configuration exactly if they are
equal without the signs of zeros. A key that is not among the changed ones stands, in the old set
and in the new one, for flags that are equal in this sense, under metadata that are equal in this
sense (`scope_eq_of_not_mem_changedKeys`).
-/

namespace FeatureFlags

namespace FlagValue

/-- The value without the signs of zeros. -/
def unsigned : FlagValue → FlagValue
  | double x => double x.unsigned
  | struct members => struct (Json.unsignedMembers members)
  | value => value

theorem same_iff (x y : FlagValue) : x.same y = true ↔ x.unsigned = y.unsigned := by
  cases x <;> cases y <;> simp [same, unsigned, Double.same_iff, Json.sameMembers_iff]

@[simp] theorem kind_unsigned (value : FlagValue) : value.unsigned.kind = value.kind := by
  cases value <;> rfl

@[simp] theorem satisfies_unsigned (value : FlagValue) (kind : ValueKind) :
    value.unsigned.satisfies kind = value.satisfies kind := by
  simp only [satisfies, kind_unsigned]

end FlagValue

namespace MetadataValue

/-- The scalar without the sign of a zero. -/
def unsigned : MetadataValue → MetadataValue
  | double x => double x.unsigned
  | value => value

theorem same_iff (x y : MetadataValue) : x.same y = true ↔ x.unsigned = y.unsigned := by
  unfold same
  rw [FlagValue.same_iff]
  cases x <;> cases y <;> simp [toFlagValue, unsigned, FlagValue.unsigned]

end MetadataValue

namespace Metadata

/-- The metadata without the signs of zeros. -/
def unsigned (metadata : Metadata) : Metadata := metadata.mapValues MetadataValue.unsigned

theorem same_iff (x y : Metadata) : x.same y = true ↔ x.unsigned = y.unsigned :=
  Dict.same_iff MetadataValue.same_iff x y

theorem unsigned_overlay (x y : Metadata) :
    unsigned (x.overlay y) = x.unsigned.overlay y.unsigned :=
  Dict.mapValues_overlay _ x y

end Metadata

namespace FlagDefinition

/-- The flag without the signs of zeros. -/
def unsigned (flag : FlagDefinition) : FlagDefinition :=
  { flag with
    variants := flag.variants.mapValues FlagValue.unsigned
    targeting := flag.targeting.map Json.unsigned
    metadata := flag.metadata.unsigned }

theorem same_iff (x y : FlagDefinition) : x.same y = true ↔ x.unsigned = y.unsigned := by
  obtain ⟨_, _, _, _, targeting, _⟩ := x
  obtain ⟨_, _, _, _, targeting', _⟩ := y
  cases targeting <;> cases targeting' <;>
    simp [same, unsigned, Dict.same_iff FlagValue.same_iff, Metadata.same_iff, Json.same_iff,
      and_assoc]

theorem variant?_unsigned (flag : FlagDefinition) (name : String) :
    flag.unsigned.variant? name = (flag.variant? name).map FlagValue.unsigned :=
  Dict.get?_mapValues _ flag.variants name

end FlagDefinition

namespace FlagSet

/-- What the resolution of a flag depends on, up to the signs of zeros. -/
def scope (set : FlagSet) (key : String) : Option (FlagDefinition × Metadata) :=
  (set.flags.get? key).map fun flag => (flag.unsigned, set.metadata.unsigned)

/-- The changed keys are in order, and each is listed once. -/
theorem pairwise_changedKeys (old : Option FlagSet) (new : FlagSet) :
    (changedKeys old new).Pairwise (· < ·) := by
  cases old with
  | none => exact Dict.pairwise_keys _
  | some old => exact Dict.pairwise_keys _

theorem mem_changedKeys_iff (old new : FlagSet) (key : String) :
    key ∈ changedKeys (some old) new ↔
      (∃ flag, new.flags.get? key = some flag ∧
        (old.metadata.same new.metadata = false ∨ old.redefined key flag = true)) ∨
      (old.flags.get? key).isSome = true ∧ new.flags.get? key = none := by
  unfold changedKeys
  simp only [Dict.mem_keys_ofEntries, List.map_append, List.mem_append, List.mem_map,
    List.mem_filter, Prod.exists, Dict.mem_entries_iff, Bool.or_eq_true, Bool.not_eq_true',
    Dict.contains, Option.isSome_eq_false_iff, Option.isNone_iff_eq_none]
  constructor
  · rintro (⟨k, flag, ⟨hflag, hchange⟩, rfl⟩ | ⟨k, flag, ⟨hflag, hgone⟩, rfl⟩)
    · exact .inl ⟨flag, hflag, hchange⟩
    · exact .inr ⟨by simp [hflag], hgone⟩
  · rintro (⟨flag, hflag, hchange⟩ | ⟨hold, hgone⟩)
    · exact .inl ⟨key, flag, ⟨hflag, hchange⟩, rfl⟩
    · obtain ⟨flag, hflag⟩ := Option.isSome_iff_exists.1 hold
      exact .inr ⟨key, flag, ⟨hflag, hgone⟩, rfl⟩

/-- A flag whose key is not among the changed ones has the same scope as before. -/
theorem scope_eq_of_not_mem_changedKeys {old new : FlagSet} {key : String}
    (h : key ∉ changedKeys (some old) new) : old.scope key = new.scope key := by
  rw [mem_changedKeys_iff, not_or, not_and] at h
  obtain ⟨hput, hgone⟩ := h
  unfold scope
  cases hnew : new.flags.get? key with
  | none =>
    cases hold : old.flags.get? key with
    | none => rfl
    | some previous => exact absurd hnew (hgone (by simp [hold]))
  | some flag =>
    have hkept : ¬(old.metadata.same new.metadata = false ∨ old.redefined key flag = true) :=
      fun hchange => hput ⟨flag, hnew, hchange⟩
    rw [not_or, Bool.not_eq_false, Bool.not_eq_true] at hkept
    obtain ⟨hmetadata, hflag⟩ := hkept
    unfold redefined at hflag
    split at hflag
    · rename_i previous hold
      rw [Bool.not_eq_false'] at hflag
      rw [hold, Option.map_some, Option.map_some, (FlagDefinition.same_iff _ _).1 hflag,
        (Metadata.same_iff _ _).1 hmetadata]
    · cases hflag

end FlagSet

end FeatureFlags
