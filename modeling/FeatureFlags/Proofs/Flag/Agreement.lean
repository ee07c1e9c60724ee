import FeatureFlags.Proofs.Flag.Acceptance
import FeatureFlags.Sync.Payload

/-!
# Full documents and deltas

A full document and a delta are read of the same parts, so that a text can be read as either, and
the two readings agree (`DocumentParts.full_and_delta_agree`). A text that does not have the form of
a document is refused as both, for the same reason. If flags are given, then the text is accepted as
a full document exactly if it is as a delta, with the same error if it is not, and applied to
nothing the delta makes the set of the full document. Without flags a full document is refused, but
a delta need not change any.
-/

namespace FeatureFlags

open Outcome

theorem Dict.foldl_erase_empty {α : Type} (names : List String) :
    names.foldl Dict.erase (∅ : Dict α) = ∅ := by
  induction names with
  | nil => rfl
  | cons name names ih => exact ih

theorem Dict.empty_overlay {α : Type} (d : Dict α) : (∅ : Dict α).overlay d = d :=
  ext_get? fun name => by simp

/-- There is nothing to remove where there are no flags. -/
theorem FlagDelta.applyTo_empty (delta : FlagDelta) :
    delta.applyTo .empty = ⟨delta.upserts, delta.metadata.getD ∅⟩ := by
  have hflags : (delta.removed.foldl Dict.erase ∅).overlay delta.upserts = delta.upserts := by
    rw [Dict.foldl_erase_empty, Dict.empty_overlay]
  exact congrArg (FlagSet.mk · (delta.metadata.getD ∅)) hflags

namespace DocumentParts

/-- What a full document is made of, once its text has been read as parts. -/
def toSet (parts : DocumentParts) : Except DocumentError FlagSet :=
  match parts.flags with
  | none => .error .missingFlags
  | some members => do
    let flags ← flagsOf members
    let metadata ← parts.metadata.elim (pure ∅) metadataOf
    return ⟨flags, metadata⟩

/-- What a delta is made of. -/
def toDelta (parts : DocumentParts) : Except DocumentError FlagDelta := do
  let upserts ← parts.flags.elim (pure ∅) flagsOf
  let metadata ← parts.metadata.elim (pure none) fun members => some <$> metadataOf members
  return ⟨upserts, parts.removed, metadata⟩

theorem parse_eq_toSet (text : String) : FlagSet.parse text = ofText text >>= toSet := by
  unfold FlagSet.parse
  refine congrArg (ofText text >>= ·) (funext fun parts => ?_)
  obtain ⟨flags, metadata, removed⟩ := parts
  cases flags <;> cases metadata <;> rfl

theorem parse_eq_toDelta (text : String) : FlagDelta.parse text = ofText text >>= toDelta := by
  unfold FlagDelta.parse
  refine congrArg (ofText text >>= ·) (funext fun parts => ?_)
  obtain ⟨flags, metadata, removed⟩ := parts
  cases flags <;> cases metadata <;> simp [toDelta]

variable {parts : DocumentParts}

theorem removed_of_toDelta {delta : FlagDelta} (h : parts.toDelta = .ok delta) :
    delta.removed = parts.removed := by
  obtain ⟨upserts, -, h⟩ := bind_eq_ok.1 h
  obtain ⟨metadata, -, h⟩ := bind_eq_ok.1 h
  cases h
  rfl

/-- If flags are given, then a full document is what the delta makes of nothing. -/
theorem toSet_eq_map_toDelta {members : Entries Json} (hflags : parts.flags = some members) :
    parts.toSet = parts.toDelta.map (·.applyTo .empty) := by
  obtain ⟨flags, metadata, removed⟩ := parts
  subst hflags
  unfold toSet toDelta
  dsimp only [Option.elim_some]
  cases flagsOf members with
  | error error => rfl
  | ok upserts =>
    cases metadata with
    | none => exact congrArg Except.ok (FlagDelta.applyTo_empty ⟨upserts, removed, none⟩).symm
    | some members =>
      dsimp only [Option.elim_some]
      cases metadataOf members with
      | error error => rfl
      | ok metadata =>
        exact congrArg Except.ok (FlagDelta.applyTo_empty ⟨upserts, removed, some metadata⟩).symm

/-- Without flags, a delta is refused only for its metadata. -/
theorem toDelta_of_no_flags (hflags : parts.flags = none) :
    ((∃ delta, parts.toDelta = .ok delta) ↔
      ∀ members, parts.metadata = some members → ∀ e ∈ members, e.2.IsScalar) ∧
    ∀ error, parts.toDelta = .error error → ∃ members, parts.metadata = some members ∧
      ∃ e ∈ members, ¬e.2.IsScalar ∧ error = .structuredMetadata e.1 := by
  obtain ⟨flags, metadata, removed⟩ := parts
  subst hflags
  cases metadata with
  | none =>
    exact ⟨⟨fun _ _ h => (by cases h), fun _ => ⟨⟨∅, removed, none⟩, rfl⟩⟩, fun _ h => (by cases h)⟩
  | some members =>
    have hdelta : toDelta ⟨none, some members, removed⟩ =
        (metadataOf members).map fun metadata => ⟨∅, removed, some metadata⟩ := by
      unfold toDelta
      dsimp only [Option.elim_some]
      cases metadataOf members <;> rfl
    rw [hdelta]
    refine ⟨⟨?_, fun scalars => ?_⟩, fun error h =>
      ⟨members, rfl, metadataOf_eq_error (map_eq_error.1 h)⟩⟩
    · rintro ⟨delta, h⟩ given hgiven
      obtain rfl : members = given := Option.some.inj hgiven
      obtain ⟨metadata, hmetadata, -⟩ := map_eq_ok.1 h
      exact exists_metadataOf_iff.1 ⟨metadata, hmetadata⟩
    · obtain ⟨metadata, hmetadata⟩ := exists_metadataOf_iff.2 (scalars members rfl)
      exact ⟨_, map_eq_ok.2 ⟨metadata, hmetadata, rfl⟩⟩

/-- A text that does not have the form of a document is refused as a full document and as a delta,
with the error of the reader. If it gives flags, then it is accepted as both or as neither, with the
same error in that case; when both are accepted, the delta makes the full set of nothing, whatever
it removes, and so a resolver without flags takes the one as it takes the other. If it gives no
flags, or `null` for them, then it is refused as a full document for that reason, and as a delta it
is refused exactly if some metadata are not scalars, for one of these. -/
theorem full_and_delta_agree (text : String) :
    match (record.reader {}).ofText text with
    | .error error =>
      FlagSet.parse text = .error (.unreadable error) ∧
        FlagDelta.parse text = .error (.unreadable error)
    | .ok ⟨some _, _, removed⟩ =>
      (∀ set, FlagSet.parse text = .ok set ↔ ∃ delta, FlagDelta.parse text = .ok delta ∧
        delta.removed = removed ∧ delta.applyTo .empty = set) ∧
      (∀ error, FlagSet.parse text = .error error ↔ FlagDelta.parse text = .error error) ∧
      ∀ current, (PayloadContent.delta text).apply none = (PayloadContent.full text).apply current
    | .ok ⟨none, metadata, _⟩ =>
      FlagSet.parse text = .error .missingFlags ∧
      ((∃ delta, FlagDelta.parse text = .ok delta) ↔
        ∀ members, metadata = some members → ∀ e ∈ members, e.2.IsScalar) ∧
      ∀ error, FlagDelta.parse text = .error error → ∃ members, metadata = some members ∧
        ∃ e ∈ members, ¬e.2.IsScalar ∧ error = .structuredMetadata e.1 := by
  have hset := parse_eq_toSet text
  have hdelta := parse_eq_toDelta text
  unfold ofText at hset hdelta
  cases hread : (record.reader {}).ofText text with
  | error error =>
    rw [hread] at hset hdelta
    exact ⟨hset, hdelta⟩
  | ok parts =>
    rw [hread] at hset hdelta
    replace hset : FlagSet.parse text = parts.toSet := hset
    replace hdelta : FlagDelta.parse text = parts.toDelta := hdelta
    obtain ⟨flags, metadata, removed⟩ := parts
    cases flags with
    | none =>
      rw [hset, hdelta]
      exact ⟨rfl, toDelta_of_no_flags rfl⟩
    | some members =>
      have hagree : toSet ⟨some members, metadata, removed⟩ = _ := toSet_eq_map_toDelta rfl
      rw [← hset, ← hdelta] at hagree
      refine ⟨fun set => ?_, fun error => ?_, fun current => hagree.symm⟩
      · rw [hagree, map_eq_ok]
        refine exists_congr fun delta => and_congr_right fun h => ?_
        rw [hdelta] at h
        rw [removed_of_toDelta h]
        simp
      · rw [hagree, map_eq_error]

/-- A delta may remove a flag and put none. -/
example :
    let text := "\x7b\"flags\":null,\"removed\":[\"a\"]\x7d"
    (FlagDelta.parse text).toOption.map (·.removed) = some ["a"] ∧
      (FlagSet.parse text).isOk = false := by
  decide +kernel

end DocumentParts

end FeatureFlags
