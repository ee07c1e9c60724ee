import FeatureFlags.Proofs.Flag.Deltas
import FeatureFlags.Proofs.Text.Utf8

/-!
# What differs between two sets

A key is listed as changed exactly if only one of the sets has a flag under it, if the flags under
it are not the same, or if the metadata differ and the new set has a flag under it
(`FlagSet.mem_changedKeys_iff_differs`). A flag is the same as itself (`FlagDefinition.same_self`),
so flags that both sets share need not be looked into.

`FlagDelta.between` is the delta of what is listed. It makes a set with the flags and the metadata
of the new one out of the old one (`FlagSet.changedKeys_exact_and_sufficient`), because what is not
listed is the same in both.
-/

namespace FeatureFlags

/-- A flag is the same as itself, as no number of a document is NaN. -/
theorem FlagDefinition.same_self (flag : FlagDefinition) : flag.same flag = true :=
  (same_iff flag flag).2 rfl

namespace FlagSet

variable {old new : FlagSet} {key : String}

theorem redefined_iff (flag : FlagDefinition) :
    old.redefined key flag = true ↔
      ∀ previous, old.flags.get? key = some previous → previous.same flag = false := by
  unfold redefined
  cases old.flags.get? key with
  | none => simp
  | some previous => simp

/-- The listed keys are those of flags that are in one of the sets only or not the same in both,
and with other metadata all keys of the new set. -/
theorem mem_changedKeys_iff_differs :
    key ∈ changedKeys (some old) new ↔
      old.flags.contains key ≠ new.flags.contains key ∨
      (∃ previous flag, old.flags.get? key = some previous ∧ new.flags.get? key = some flag ∧
        previous.same flag = false) ∨
      old.metadata.same new.metadata = false ∧ new.flags.contains key = true := by
  rw [mem_changedKeys_iff]
  simp only [redefined_iff, Dict.contains]
  cases hold : old.flags.get? key <;> cases hnew : new.flags.get? key <;> simp [or_comm]

/-- What is not listed is the same in both sets. -/
theorem map_unsigned_eq_of_not_mem {old : Option FlagSet} (h : key ∉ changedKeys old new) :
    ((old.getD .empty).flags.get? key).map FlagDefinition.unsigned =
      (new.flags.get? key).map FlagDefinition.unsigned := by
  cases old with
  | none =>
    have absent : new.flags.get? key = none := by
      simpa [changedKeys, Dict.mem_keys_iff] using h
    rw [absent]
    rfl
  | some old =>
    have scope := congrArg (Option.map Prod.fst) (scope_eq_of_not_mem_changedKeys h)
    simpa [FlagSet.scope, Function.comp_def] using scope

end FlagSet

namespace FlagDelta

/-- The delta of what has changed: it puts the flags of the new set, removes the keys that the new
set has not, and replaces the metadata. -/
def between (old : Option FlagSet) (new : FlagSet) : FlagDelta where
  upserts := new.flags.restrict (FlagSet.changedKeys old new).contains
  removed := (FlagSet.changedKeys old new).filter fun key => !new.flags.contains key
  metadata := some new.metadata

/-- Under the listed keys the delta puts what the new set has there, and it leaves the others
alone. -/
theorem get?_applyTo_between (old : Option FlagSet) (new base : FlagSet) (key : String) :
    ((between old new).applyTo base).flags.get? key =
      if key ∈ FlagSet.changedKeys old new then new.flags.get? key else base.flags.get? key := by
  rw [get?_applyTo, between, Dict.get?_restrict]
  by_cases listed : key ∈ FlagSet.changedKeys old new
  · cases hnew : new.flags.get? key <;> simp [listed, hnew, Dict.contains]
  · simp [listed]

end FlagDelta

/-- The diff is exact: in the order of their bytes, and each once, it lists the keys of flags that
are in one of the sets only or not the same in both, and all keys of the new set if the metadata
differ or if there is no old set. It is sufficient as well: the delta of what is listed, applied to
the old set, gives the flags and the metadata of the new one. -/
theorem FlagSet.changedKeys_exact_and_sufficient (new : FlagSet) :
    changedKeys none new = new.flags.keys ∧
    (∀ (old : FlagSet) (key : String), key ∈ changedKeys (some old) new ↔
      old.flags.contains key ≠ new.flags.contains key ∨
      (∃ previous flag, old.flags.get? key = some previous ∧ new.flags.get? key = some flag ∧
        previous.same flag = false) ∨
      old.metadata.same new.metadata = false ∧ new.flags.contains key = true) ∧
    ∀ old : Option FlagSet,
      (changedKeys old new).Pairwise (fun a b => Utf8.encode a < Utf8.encode b) ∧
      let reached := (FlagDelta.between old new).applyTo (old.getD .empty)
      Dict.same FlagDefinition.same reached.flags new.flags = true ∧
        reached.metadata = new.metadata := by
  refine ⟨rfl, fun old key => mem_changedKeys_iff_differs, fun old => ⟨?_, ?_, rfl⟩⟩
  · exact (pairwise_changedKeys old new).imp utf8_encode_lt.2
  · rw [Dict.same_iff FlagDefinition.same_iff]
    refine Dict.ext_get? fun key => ?_
    rw [Dict.get?_mapValues, Dict.get?_mapValues, FlagDelta.get?_applyTo_between]
    split
    · rfl
    · rename_i unlisted
      exact map_unsigned_eq_of_not_mem unlisted

end FeatureFlags
