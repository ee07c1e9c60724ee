import FeatureFlags.Proofs.Flag.Unsigned

/-!
# Deltas compose

What a delta makes of a set is said by the lookups: the delta's own flag comes first, and a key that
it removes falls back on nothing (`FlagDelta.get?_applyTo`). So two deltas one after the other are
one delta (`FlagDelta.applyTo_applyTo`), and a delta that comes again changes nothing more
(`FlagDelta.applyTo_again`). No flag of a set differs from itself (`FlagSet.changedKeys_self`).
-/

namespace FeatureFlags

/-- Sets with the same lookups and the same metadata are equal. -/
theorem FlagSet.ext_get? {a b : FlagSet} (flags : ∀ key, a.flags.get? key = b.flags.get? key)
    (metadata : a.metadata = b.metadata) : a = b := by
  cases a
  cases b
  cases Dict.ext_get? flags
  cases metadata
  rfl

namespace FlagDelta

/-- One delta and then another as a single one. -/
def andThen (first second : FlagDelta) : FlagDelta where
  upserts := (second.removed.foldl Dict.erase first.upserts).overlay second.upserts
  removed := first.removed ++ second.removed
  metadata := second.metadata.or first.metadata

theorem get?_applyTo (delta : FlagDelta) (base : FlagSet) (key : String) :
    (delta.applyTo base).flags.get? key = (delta.upserts.get? key).or
      (if delta.removed.contains key then none else base.flags.get? key) := by
  rw [applyTo, Dict.get?_overlay, Dict.get?_foldl_erase]

theorem get?_andThen (first second : FlagDelta) (key : String) :
    (first.andThen second).upserts.get? key = (second.upserts.get? key).or
      (if second.removed.contains key then none else first.upserts.get? key) := by
  rw [andThen, Dict.get?_overlay, Dict.get?_foldl_erase]

/-- To apply one delta and then another is to apply both as a single one. -/
theorem applyTo_applyTo (first second : FlagDelta) (base : FlagSet) :
    second.applyTo (first.applyTo base) = (first.andThen second).applyTo base := by
  refine FlagSet.ext_get? (fun key => ?_) ?_
  · have removed : (first.andThen second).removed.contains key =
        (first.removed.contains key || second.removed.contains key) := by
      simp [andThen]
    rw [get?_applyTo, get?_applyTo, get?_applyTo, get?_andThen, removed, Option.or_assoc]
    cases second.removed.contains key <;> simp
  · cases hmetadata : second.metadata <;> simp [applyTo, andThen, hmetadata]

/-- A delta that is applied again changes nothing more. -/
theorem applyTo_again (delta : FlagDelta) (base : FlagSet) :
    delta.applyTo (delta.applyTo base) = delta.applyTo base := by
  rw [applyTo_applyTo]
  refine FlagSet.ext_get? (fun key => ?_) ?_
  · simp only [get?_applyTo, get?_andThen]
    cases delta.upserts.get? key <;> simp [andThen]
  · simp [applyTo, andThen]

end FlagDelta

/-- A set does not differ from itself. -/
theorem FlagSet.changedKeys_self (set : FlagSet) : changedKeys (some set) set = [] := by
  refine List.eq_nil_iff_forall_not_mem.2 fun key hkey => ?_
  obtain ⟨flag, hflag, hmetadata | hredefined⟩ | ⟨hold, hgone⟩ :=
    (mem_changedKeys_iff set set key).1 hkey
  · rw [(Metadata.same_iff _ _).2 rfl] at hmetadata
    cases hmetadata
  · rw [redefined, hflag, Bool.not_eq_true', (FlagDefinition.same_iff _ _).2 rfl] at hredefined
    cases hredefined
  · rw [hgone] at hold
    cases hold

end FeatureFlags
