import FeatureFlags.Proofs.Flag.Form

/-!
# Well-formed flags

Whatever the text of an accepted update, each flag that is read of it is well formed
(`FlagDefinition.WellFormed`): it carries the key that it stands under, it has a default among its
variants, and its targeting is a rule or nothing. This holds of the flags of a full document
(`wellFormed_of_parse`) and of those that a delta puts (`wellFormed_of_parse_delta`).
-/

namespace FeatureFlags

open Outcome

/-- What every flag holds that is read under a key. -/
structure FlagDefinition.WellFormed (key : String) (flag : FlagDefinition) : Prop where
  key_eq : flag.key = key
  key_ne : key ≠ ""
  variants : flag.variants.isEmpty = false
  defaultVariant : flag.defaultVariant ∈ flag.variants.keys
  default : flag.default?.isSome = true
  targeting : flag.targeting ≠ some .null ∧ flag.targeting ≠ some (.object [])

/-- All flags are well formed under their keys. -/
def Dict.FlagsWellFormed (flags : Dict FlagDefinition) : Prop :=
  ∀ key flag, flags.get? key = some flag → flag.WellFormed key

theorem Dict.flagsWellFormed_empty : (∅ : Dict FlagDefinition).FlagsWellFormed := by
  intro key flag h
  cases h

theorem Dict.isEmpty_eq_false_of_mem {α : Type} {d : Dict α} {name : String} (h : name ∈ d.keys) :
    d.isEmpty = false := by
  obtain ⟨entry, hmem, -⟩ := List.mem_map.1 h
  exact List.isEmpty_eq_false_iff.2 (List.ne_nil_of_mem hmem)

namespace FlagDefinition

theorem effectiveTargeting_ne (targeting : Option Json) :
    effectiveTargeting targeting ≠ some .null ∧ effectiveTargeting targeting ≠ some (.object []) := by
  constructor
  · intro h
    exact (effectiveTargeting_eq_some.1 h).2.1 rfl
  · intro h
    exact (effectiveTargeting_eq_some.1 h).2.2 rfl

/-- A definition is well formed under the key that it is read for. -/
theorem wellFormed_of_ofJson {key : String} {tree : Json} {flag : FlagDefinition}
    (h : ofJson key tree = .ok flag) : flag.WellFormed key := by
  obtain ⟨hkey, entry, -, hentry⟩ := ofJson_eq_ok.1 h
  obtain ⟨-, -, -, hcontains, -, hown, hdefault, htargeting⟩ := ofEntry_eq_ok.1 hentry
  rw [← hdefault] at hcontains
  have among : flag.defaultVariant ∈ flag.variants.keys := Dict.mem_keys_iff.2 hcontains
  exact ⟨hown, hkey, Dict.isEmpty_eq_false_of_mem among, among, hcontains,
    htargeting ▸ effectiveTargeting_ne entry.targeting⟩

end FlagDefinition

/-- Each flag of an object is read under its key. -/
theorem DocumentParts.exists_ofJson_of_flagsOf {members : Entries Json} {flags : Dict FlagDefinition}
    (h : flagsOf members = .ok flags) {key : String} {flag : FlagDefinition}
    (hget : flags.get? key = some flag) : ∃ tree, FlagDefinition.ofJson key tree = .ok flag := by
  rw [flagsOf_eq] at h
  obtain ⟨entries, hentries, hflags⟩ := bind_eq_ok.1 h
  cases hflags
  have hmem : (key, flag) ∈ entries := Entries.mem_of_mem_sort (Dict.mem_entries_iff.2 hget)
  obtain ⟨member, -, hmember⟩ := exists_of_mem_mapM hentries hmem
  obtain ⟨rfl, hread⟩ : member.1 = key ∧ FlagDefinition.ofJson member.1 member.2 = .ok flag :=
    entryOf_eq_ok.1 hmember
  exact ⟨member.2, hread⟩

theorem DocumentParts.wellFormed_of_flagsOf {members : Entries Json} {flags : Dict FlagDefinition}
    (h : flagsOf members = .ok flags) : flags.FlagsWellFormed := by
  intro key flag hget
  obtain ⟨tree, hread⟩ := exists_ofJson_of_flagsOf h hget
  exact FlagDefinition.wellFormed_of_ofJson hread

/-- The flags of a full document are well formed. -/
theorem FlagSet.wellFormed_of_parse {text : String} {set : FlagSet}
    (h : FlagSet.parse text = .ok set) : set.flags.FlagsWellFormed := by
  obtain ⟨-, members, -, -, hflags⟩ := flags_of_parse h
  exact DocumentParts.wellFormed_of_flagsOf hflags

/-- What is read of an accepted delta. -/
theorem FlagDelta.upserts_of_parse {text : String} {delta : FlagDelta}
    (h : FlagDelta.parse text = .ok delta) :
    ∃ parts, DocumentParts.ofText text = .ok parts ∧ delta.removed = parts.removed ∧
      (parts.flags = none ∧ delta.upserts = ∅ ∨
        ∃ flags, parts.flags = some flags ∧ DocumentParts.flagsOf flags = .ok delta.upserts) := by
  obtain ⟨parts, hparts, h⟩ := bind_eq_ok.1 h
  refine ⟨parts, hparts, ?_⟩
  cases hflags : parts.flags with
  | none =>
    rw [hflags] at h
    obtain ⟨upserts, hnone, h⟩ := bind_eq_ok.1 h
    cases hnone
    split at h
    · obtain ⟨metadata, -, h⟩ := bind_eq_ok.1 h
      cases h
      exact ⟨rfl, .inl ⟨rfl, rfl⟩⟩
    · cases h
      exact ⟨rfl, .inl ⟨rfl, rfl⟩⟩
  | some flags =>
    rw [hflags] at h
    obtain ⟨upserts, hupserts, h⟩ := bind_eq_ok.1 h
    split at h
    · obtain ⟨metadata, -, h⟩ := bind_eq_ok.1 h
      cases h
      exact ⟨rfl, .inr ⟨flags, rfl, hupserts⟩⟩
    · cases h
      exact ⟨rfl, .inr ⟨flags, rfl, hupserts⟩⟩

/-- The flags that a delta puts are well formed. -/
theorem FlagDelta.wellFormed_of_parse_delta {text : String} {delta : FlagDelta}
    (h : FlagDelta.parse text = .ok delta) : delta.upserts.FlagsWellFormed := by
  obtain ⟨-, -, -, ⟨-, hnone⟩ | ⟨flags, -, hflags⟩⟩ := upserts_of_parse h
  · rw [hnone]
    exact Dict.flagsWellFormed_empty
  · exact DocumentParts.wellFormed_of_flagsOf hflags

end FeatureFlags
