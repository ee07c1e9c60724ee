import FeatureFlags.Proofs.Json.Forms
import FeatureFlags.Proofs.Resolver.Announcements
import FeatureFlags.Proofs.Resolver.Shape
import FeatureFlags.Proofs.Targeting.Dependence
import Mathlib.Tactic.MkIffOfInductiveProp

/-!
# The form of targeting trees

A targeting tree has a documented form (`TargetingRules.IsWritten` with `Writing.strict`). The trees
that are read are those of the loose form (`TargetingRules.exists_ofJson_iff`), in which a record
may also be an array of its fields and an operator an object with one member. A tree that has not
even the loose form is an error for every context, and every resolution of its flag gives the caller's
default with that error (`TargetingRules.error_unless_written`). But an array, which is not of the
documented form, may be taken for rules that select nothing (`TargetingRules.takes_empty_array`).
-/

namespace FeatureFlags

open Json

/-! ## Written forms -/

variable {writing : Writing} {tree : Json}

namespace AttributeOperator

/-- The names of the operators. -/
def names : List String :=
  ["equals", "not_equals", "contains", "starts_with", "ends_with", "greater_than", "less_than",
    "greater_than_or_equals", "less_than_or_equals", "in", "not_in"]

@[simp] theorem takes_eq : (Named.reader (α := AttributeOperator)).Takes = IsName .loose names := by
  ext tree
  exact Reader.takes_variant

end AttributeOperator

namespace Condition

/-- The names of the parts of a condition. -/
def parts : List String := ["attribute", "operator", "value"]

/-- The tree of a condition, which has all its parts. -/
@[mk_iff]
structure IsWritten (writing : Writing) (tree : Json) : Prop where
  record : tree.IsRecord writing parts
  subject : ∃ y, tree.part? parts "attribute" = some y ∧ y.IsText
  operator : ∃ y, tree.part? parts "operator" = some y ∧ y.IsName writing AttributeOperator.names
  value : ∃ y, tree.part? parts "value" = some y

@[simp] theorem takes_eq : (record.reader {}).Takes = IsWritten .loose := by
  ext tree
  rw [Record.takes_iff rfl (by decide), show record.names = parts from rfl]
  simp [record, isWritten_iff]

/-- A condition that is an object with a text for its operator. -/
def IsPlain (tree : Json) : Prop :=
  tree.IsObject ∧ ∀ y, tree.part? parts "operator" = some y → y.IsText

theorem isWritten_strict_eq :
    IsWritten .strict = fun tree => IsWritten .loose tree ∧ IsPlain tree := by
  ext tree
  simp only [isWritten_iff, IsPlain, isRecord_strict_iff, isName_strict_iff]
  constructor
  · rintro ⟨⟨loose, object⟩, subject, ⟨y, hy, name, text⟩, value⟩
    refine ⟨⟨loose, subject, ⟨y, hy, name⟩, value⟩, object, fun z hz => ?_⟩
    cases hy.symm.trans hz
    exact text
  · rintro ⟨⟨loose, subject, ⟨y, hy, name⟩, value⟩, object, texts⟩
    exact ⟨⟨loose, object⟩, subject, ⟨y, hy, name, texts y hy⟩, value⟩

end Condition

namespace Rule

/-- The names of the parts of a rule. -/
def parts : List String := ["conditions", "variant"]

/-- The tree of a rule, which may lack conditions. -/
@[mk_iff]
structure IsWritten (writing : Writing) (tree : Json) : Prop where
  record : tree.IsRecord writing parts
  conditions : ∀ y, tree.part? parts "conditions" = some y →
    y.IsArrayOf (Condition.IsWritten writing)
  variant : ∃ y, tree.part? parts "variant" = some y ∧ y.IsText

@[simp] theorem takes_eq : (record.reader {}).Takes = IsWritten .loose := by
  ext tree
  rw [Record.takes_iff rfl (by decide), show record.names = parts from rfl]
  simp [record, isWritten_iff]

/-- A rule that is an object with plain conditions. -/
def IsPlain (tree : Json) : Prop :=
  tree.IsObject ∧ ∀ y, tree.part? parts "conditions" = some y → y.EachItem Condition.IsPlain

theorem isWritten_strict_eq :
    IsWritten .strict = fun tree => IsWritten .loose tree ∧ IsPlain tree := by
  ext tree
  simp only [isWritten_iff, IsPlain, isRecord_strict_iff, Condition.isWritten_strict_eq,
    isArrayOf_and_iff, imp_and, forall_and]
  tauto

end Rule

namespace Bucket

/-- The names of the parts of a bucket. -/
def parts : List String := ["variant", "weight"]

/-- The tree of a bucket, which has all its parts. -/
@[mk_iff]
structure IsWritten (writing : Writing) (tree : Json) : Prop where
  record : tree.IsRecord writing parts
  variant : ∃ y, tree.part? parts "variant" = some y ∧ y.IsText
  weight : ∃ y, tree.part? parts "weight" = some y ∧ y.IsUInt32

@[simp] theorem takes_eq : (record.reader {}).Takes = IsWritten .loose := by
  ext tree
  rw [Record.takes_iff rfl (by decide), show record.names = parts from rfl]
  simp [record, isWritten_iff]

theorem isWritten_strict_eq :
    IsWritten .strict = fun tree => IsWritten .loose tree ∧ tree.IsObject := by
  ext tree
  simp only [isWritten_iff, isRecord_strict_iff]
  tauto

end Bucket

namespace Fractional

/-- The names of the parts of a rollout. -/
def parts : List String := ["seed", "buckets"]

/-- The tree of a rollout, which may lack a seed or have `null` for it. -/
@[mk_iff]
structure IsWritten (writing : Writing) (tree : Json) : Prop where
  record : tree.IsRecord writing parts
  seed : ∀ y, tree.part? parts "seed" = some y → y = .null ∨ y.IsText
  buckets : ∃ y, tree.part? parts "buckets" = some y ∧ y.IsArrayOf (Bucket.IsWritten writing)

@[simp] theorem takes_eq : (record.reader {}).Takes = IsWritten .loose := by
  ext tree
  rw [Record.takes_iff rfl (by decide), show record.names = parts from rfl]
  simp [record, isWritten_iff]

/-- A rollout that is an object with objects for its buckets. -/
def IsPlain (tree : Json) : Prop :=
  tree.IsObject ∧ ∀ y, tree.part? parts "buckets" = some y → y.EachItem IsObject

theorem isWritten_strict_eq :
    IsWritten .strict = fun tree => IsWritten .loose tree ∧ IsPlain tree := by
  ext tree
  simp only [isWritten_iff, IsPlain, isRecord_strict_iff, Bucket.isWritten_strict_eq,
    isArrayOf_and_iff]
  constructor
  · rintro ⟨⟨loose, object⟩, seed, ⟨y, hy, buckets, objects⟩⟩
    refine ⟨⟨loose, seed, y, hy, buckets⟩, object, fun z hz => ?_⟩
    cases hy.symm.trans hz
    exact objects
  · rintro ⟨⟨loose, seed, y, hy, buckets⟩, object, objects⟩
    exact ⟨⟨loose, object⟩, seed, y, hy, buckets, objects y hy⟩

end Fractional

namespace TargetingRules

/-- The names of the parts of a targeting tree. -/
def parts : List String := ["rules", "fractional"]

/-- A targeting tree, which may lack rules, and may lack a rollout or have `null` for it. -/
@[mk_iff]
structure IsWritten (writing : Writing) (tree : Json) : Prop where
  record : tree.IsRecord writing parts
  rules : ∀ y, tree.part? parts "rules" = some y → y.IsArrayOf (Rule.IsWritten writing)
  fractional : ∀ y, tree.part? parts "fractional" = some y →
    y = .null ∨ Fractional.IsWritten writing y

/-- The targeting trees that are read are those of the loose form. -/
@[simp] theorem takes_eq : (record.reader {}).Takes = IsWritten .loose := by
  ext tree
  rw [Record.takes_iff rfl (by decide), show record.names = parts from rfl]
  simp [record, isWritten_iff]

/-- A targeting tree in which records are objects and operators are texts. -/
def IsPlain (tree : Json) : Prop :=
  tree.IsObject ∧
    (∀ y, tree.part? parts "rules" = some y → y.EachItem Rule.IsPlain) ∧
    ∀ y, tree.part? parts "fractional" = some y → y = .null ∨ Fractional.IsPlain y

theorem isWritten_strict_eq :
    IsWritten .strict = fun tree => IsWritten .loose tree ∧ IsPlain tree := by
  ext tree
  simp only [isWritten_iff, IsPlain, isRecord_strict_iff, Rule.isWritten_strict_eq,
    Fractional.isWritten_strict_eq, isArrayOf_and_iff, imp_and, forall_and, or_and_left]
  tauto

/-- A targeting tree is read if it has the loose form. -/
theorem exists_ofJson_iff : (∃ targeting, ofJson tree = .ok targeting) ↔ IsWritten .loose tree :=
  iff_of_eq (congrFun takes_eq tree)

end TargetingRules

/-! ## What comes of errors -/

/-- An error of targeting is the error of the flag, if the flag is enabled. -/
theorem FlagDefinition.evaluate_of_refused {flag : FlagDefinition} {context : EvaluationContext}
    {evaluator : TargetingEvaluator} {error : TargetingError} (on : flag.isEnabled = true)
    (targeted : flag.targeting = some tree) (refused : evaluator flag context = .error error)
    (requested : ValueKind) (setMetadata : Metadata) :
    flag.evaluate requested context evaluator setMetadata =
      .error ⟨error.errorType, error.message⟩ := by
  simp only [evaluate, select, on, targeted, refused]
  rfl

/-- If the targeting of a flag fails with one error for every context, every resolution of the flag
gives the caller's default with this error. -/
theorem Resolver.resolve_of_refused {resolver : Resolver} {snapshot : Snapshot}
    {flag : FlagDefinition} {flagKey : String} {error : TargetingError}
    (reachable : resolver.Reachable) (current : resolver.store.snapshot = some snapshot)
    (held : snapshot.get? flagKey = some flag) (on : flag.isEnabled = true)
    (targeted : flag.targeting = some tree)
    (refused : ∀ context, resolver.evaluator flag context = .error error) (kind : ValueKind)
    (fallback : kind.Carrier) (context : EvaluationContext) :
    (resolver.resolve flagKey kind fallback context).1 =
      .ofError fallback ⟨error.errorType, error.message⟩ := by
  obtain ⟨asker, -, hanswer⟩ := reachable.traced.resolve_fst current flagKey kind fallback context
  have evaluated := FlagDefinition.evaluate_of_refused on targeted (refused asker) kind
    snapshot.set.metadata
  rw [hanswer, compute, Snapshot.evaluate, held]
  simp only [evaluated, Evaluation.conclude]

namespace TargetingRules

/-- A targeting tree that has not even the loose form is an error, the same one for every context,
and every resolution of an enabled flag that has it gives the caller's default with this error. All
trees of the loose form are read, and then only the rollout can fail; the documented form is the
loose form in which records are objects and operators are texts. -/
theorem error_unless_written {flag : FlagDefinition} (targeted : flag.targeting = some tree) :
    (¬ IsWritten .loose tree → ∃ message,
      (∀ context, evaluator flag context = .error (.rule message)) ∧
      ∀ (resolver : Resolver) (snapshot : Snapshot) (flagKey : String), resolver.Reachable →
        resolver.evaluator = evaluator → resolver.store.snapshot = some snapshot →
        snapshot.get? flagKey = some flag → flag.isEnabled = true →
        ∀ (kind : ValueKind) (fallback : kind.Carrier) (context : EvaluationContext),
          (resolver.resolve flagKey kind fallback context).1 =
            .ofError fallback ⟨.general, "Invalid targeting rule: " ++ message⟩) ∧
    (IsWritten .loose tree → ∀ context error, evaluator flag context = .error error →
      error = .invalidContext "fractional rollout requires a targeting key" ∨
        error = .rule "fractional buckets have zero total weight") ∧
    (IsWritten .strict tree ↔ IsWritten .loose tree ∧ IsPlain tree) := by
  refine ⟨fun unwritten => ?_, fun written context error failed => ?_,
    iff_of_eq (congrFun isWritten_strict_eq tree)⟩
  · cases hread : ofJson tree with
    | ok targeting => exact absurd (exists_ofJson_iff.1 ⟨targeting, hread⟩) unwritten
    | error error =>
      have refused := evaluator_of_unreadable targeted hread
      refine ⟨error.message, refused, ?_⟩
      intro resolver snapshot flagKey reachable builtin current held on kind fallback context
      exact Resolver.resolve_of_refused reachable current held on targeted (builtin ▸ refused) kind
        fallback context
  · obtain ⟨targeting, hread⟩ := exists_ofJson_iff.2 written
    rw [evaluator_of_readable targeted hread] at failed
    exact error_of_select failed

/-- A flag whose targeting tree is of no documented shape is published. -/
def undocumented : List ResolverCall :=
  let document := "\x7b\"flags\":\x7b\"checkout\":\x7b\"state\":\"ENABLED\"," ++
    "\"variants\":\x7b\"on\":true,\"off\":false\x7d,\"defaultVariant\":\"off\"," ++
    "\"targeting\":\x7b\"if\":[true,\"on\",\"off\"]\x7d\x7d\x7d\x7d"
  [.begin, .handle (.ready { content := .full document })]

theorem error_unless_written_undocumented :
    let resolver := ((Resolver.routed 2 ResolutionCache.spread evaluator).run undocumented).2
    ∃ message, ∀ context, (resolver.resolve "checkout" .boolean true context).1 =
      .ofError true ⟨.general, "Invalid targeting rule: " ++ message⟩ := by
  dsimp only
  have reachable := Resolver.Reachable.called 2 ResolutionCache.spread evaluator undocumented
  have builtin := Resolver.evaluator_run (.routed 2 ResolutionCache.spread evaluator) undocumented
  -- Only the facts are computed; the rest must not look into the resolver.
  generalize hresolver :
    ((Resolver.routed 2 ResolutionCache.spread evaluator).run undocumented).2 = resolver
      at reachable builtin ⊢
  have facts : (resolver.store.snapshot.bind (·.get? "checkout")).map (fun flag =>
      (flag.isEnabled, flag.targeting.map fun tree => (ofJson tree).isOk)) =
        some (true, some false) := by
    subst hresolver
    decide +kernel
  obtain ⟨flag, hflag, facts⟩ := Option.map_eq_some_iff.1 facts
  obtain ⟨snapshot, current, held⟩ := Option.bind_eq_some_iff.1 hflag
  obtain ⟨on, facts⟩ := Prod.mk.inj facts
  obtain ⟨tree, targeted, failed⟩ := Option.map_eq_some_iff.1 facts
  have unwritten : ¬ IsWritten .loose tree := fun written => by
    obtain ⟨targeting, hread⟩ := exists_ofJson_iff.2 written
    rw [hread] at failed
    cases failed
  obtain ⟨message, -, resolutions⟩ := (error_unless_written targeted).1 unwritten
  exact ⟨message,
    resolutions resolver snapshot "checkout" reachable builtin current held on .boolean true⟩

/-- An array is not of the documented form, but the empty one is read as rules that select nothing,
and everybody is served the default variant. -/
theorem takes_empty_array :
    let flag : FlagDefinition := ⟨"checkout", .enabled,
      Dict.ofEntries [("off", .bool false), ("on", .bool true)], "off", some (.array []), ∅⟩
    ¬ IsWritten .strict (.array []) ∧ ∀ context,
      evaluator flag context = .ok none ∧
      flag.evaluate .boolean context evaluator ∅ =
        .ok (.value ⟨"off", .bool false, .default, ∅⟩) := by
  refine ⟨fun written => ?_, fun context => ⟨rfl, rfl⟩⟩
  obtain ⟨strict, -⟩ := written.record
  cases strict

end TargetingRules

end FeatureFlags
