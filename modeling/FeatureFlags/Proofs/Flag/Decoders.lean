import FeatureFlags.Proofs.Flag.Admission

/-!
# Values by trial

A value without a tag is read by trying its kinds one after the other. That makes the same value as
looking at the tree (`Untagged.trial_agrees`): the kinds of trees exclude each other but for
numbers, where an integer is tried before a double, and a double takes every number that is no
integer of 64 signed bits.
-/

namespace FeatureFlags

open Json Outcome

namespace Untagged

theorem flagValue?_eq_ofJson? : flagValue? = FlagValue.ofJson? := by
  funext tree
  cases tree with
  | number n =>
    -- the integer is tried first, so the double is left with what does not fit
    cases fits : n.toInt64? with
    | some i => simp [flagValue?, firstAccepted, bool?, toString?, int64?, FlagValue.ofJson?,
        FlagValue.ofNumber, fits]
    | none => simp [flagValue?, firstAccepted, bool?, toString?, int64?, double?,
        FlagValue.ofJson?, FlagValue.ofNumber, fits]
  | _ => rfl

theorem metadataValue?_eq_ofJson? : metadataValue? = MetadataValue.ofJson? := by
  funext tree
  cases tree with
  | number n =>
    cases fits : n.toInt64? with
    | some i => simp [metadataValue?, firstAccepted, bool?, toString?, int64?,
        MetadataValue.ofJson?, MetadataValue.ofNumber, fits]
    | none => simp [metadataValue?, firstAccepted, bool?, toString?, int64?, double?,
        MetadataValue.ofJson?, MetadataValue.ofNumber, fits]
  | _ => rfl

variable {α : Type} {union : String} {read? : Json → Option α} {tree : Json}

/-- From a tree, a trial reads what the first kind makes of it that accepts it, and otherwise fails
with the name of the type. -/
theorem reader_ofTree (inOrder : tree.sorted = tree) : (reader union read?).ofTree tree =
    (read? tree).elim (.error (.data (.noVariant union))) .ok := by
  have whole : Reader.json .tree (.ofJson tree) = .ok tree := by
    rw [Reader.json, Draft.json_ofJson, inOrder]
    rfl
  rw [Reader.ofTree, reader, whole]
  dsimp only [bind, Except.bind]
  cases read? tree <;> rfl

/-- A trial of the kinds makes of a tree the value that it stands for, of the same kind, and fails
exactly where it stands for none: on arrays and `null`, and among scalars on objects too. -/
theorem trial_agrees (inOrder : tree.sorted = tree) :
    (∀ value, FlagValue.reader.ofTree tree = .ok value ↔ FlagValue.ofJson? tree = some value) ∧
    (FlagValue.reader.ofTree tree = .error (.data (.noVariant "FlagValue")) ↔ ¬ tree.IsValue) ∧
    (∀ value, MetadataValue.reader.ofTree tree = .ok value ↔
      MetadataValue.ofJson? tree = some value) ∧
    (MetadataValue.reader.ofTree tree = .error (.data (.noVariant "MetadataValue")) ↔
      ¬ tree.IsScalar) := by
  rw [FlagValue.reader, MetadataValue.reader, reader_ofTree inOrder, reader_ofTree inOrder,
    flagValue?_eq_ofJson?, metadataValue?_eq_ofJson?, ← FlagValue.isSome_ofJson?,
    ← MetadataValue.isSome_ofJson?]
  refine ⟨fun value => ?_, ?_, fun value => ?_, ?_⟩
  · cases FlagValue.ofJson? tree <;> simp
  · cases FlagValue.ofJson? tree <;> simp
  · cases MetadataValue.ofJson? tree <;> simp
  · cases MetadataValue.ofJson? tree <;> simp

/-- An object with the least integer that fits, the first ones that do not, a zero with a sign and
an integral double is a structure of just these; the integer beyond the signed range is a double. -/
theorem trial_agrees_at_bounds :
    let beyond : Number := .integer 0x8000000000000000 (by decide)
    let members : Entries Json := [
      ("a", .number beyond),
      ("b", .array [.number (.integer (-0x8000000000000000) (by decide)), .null,
        .number (.double ⟨Binary64.signedZero true, by decide⟩)]),
      ("c", .object [("d", .number (.double (FlagValue.widen 3)))])]
    FlagValue.reader.ofTree (.object members) = .ok (.struct members) ∧
      MetadataValue.reader.ofTree (.object members) =
        .error (.data (.noVariant "MetadataValue")) ∧
      MetadataValue.reader.ofTree (.number beyond) = .ok (.double beyond.toDouble) := by
  intro beyond members
  have inOrder : (Json.object members).sorted = .object members :=
    sorted_of_members (by decide) (by simp [members, sorted, sortedItems]; rfl)
  have single : (Json.number beyond).sorted = .number beyond := rfl
  obtain ⟨values, -, -, scalars⟩ := trial_agrees inOrder
  exact ⟨(values _).2 rfl, scalars.2 id, ((trial_agrees single).2.2.1 _).2 rfl⟩

end Untagged

end FeatureFlags
