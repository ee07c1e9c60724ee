import FeatureFlags.Proofs.Targeting.Unsigned
import FeatureFlags.Resolver.Basic

/-!
# What a resolution depends on

The outline of an outcome leaves out the signs of zeros and the messages of errors. It depends on
nothing but the scope of the flag (`Snapshot.outline_evaluate`), and what a caller is told of two
outcomes with one outline agrees (`Evaluation.conclude_agrees`).
-/

namespace FeatureFlags

/-- Two resolutions are the same for a caller who compares values and metadata as configurations are
compared, and who does not look at messages. -/
structure ResolutionDetails.Agrees (kind : ValueKind) (a b : ResolutionDetails kind.Carrier) :
    Prop where
  variant : a.variant = b.variant
  reason : a.reason = b.reason
  errorType : a.error.map (·.errorType) = b.error.map (·.errorType)
  value : (FlagValue.ofCarrier kind a.value).same (.ofCarrier kind b.value) = true
  metadata : a.metadata.same b.metadata = true

/-- The evaluation without the signs of zeros. -/
def Evaluation.unsigned : Evaluation → Evaluation
  | value ⟨variant, x, reason, metadata⟩ => value ⟨variant, x.unsigned, reason, metadata.unsigned⟩
  | disabled metadata => disabled metadata.unsigned

/-- The outcome without the signs of zeros and the messages of errors. -/
def Evaluation.outline (outcome : Except ResolutionError Evaluation) :
    Except ErrorType Evaluation :=
  (outcome.map unsigned).mapError (·.errorType)

namespace FlagDefinition

theorem select_unsigned (flag : FlagDefinition) (context : EvaluationContext) :
    (flag.unsigned.select context TargetingRules.evaluator).mapError (·.errorType) =
      (flag.select context TargetingRules.evaluator).mapError (·.errorType) := by
  have hevaluator := TargetingRules.evaluator_unsigned flag context
  unfold select
  cases htree : flag.targeting with
  | none => simp only [unsigned, htree, Option.map_none]
  | some tree =>
    have htree' : flag.unsigned.targeting = some tree.unsigned := by
      simp only [unsigned, htree, Option.map_some]
    rw [htree']
    dsimp only
    generalize TargetingRules.evaluator flag.unsigned context = x at hevaluator
    generalize TargetingRules.evaluator flag context = y at hevaluator
    cases x with
    | error e =>
      cases y with
      | error e' => exact congrArg Except.error (Except.error.inj hevaluator)
      | ok v => cases hevaluator
    | ok v =>
      cases y with
      | error e' => cases hevaluator
      | ok w =>
        cases hevaluator
        cases v <;> rfl

/-- A flag without the signs of zeros evaluates to the outline of its evaluation. -/
theorem evaluate_unsigned (flag : FlagDefinition) (kind : ValueKind) (context : EvaluationContext)
    (setMetadata : Metadata) :
    (flag.unsigned.evaluate kind context TargetingRules.evaluator setMetadata.unsigned).mapError
        (·.errorType) =
      Evaluation.outline (flag.evaluate kind context TargetingRules.evaluator setMetadata) := by
  have hselect := flag.select_unsigned context
  have hmetadata : Metadata.unsigned (setMetadata.overlay flag.metadata) =
      setMetadata.unsigned.overlay flag.metadata.unsigned :=
    Metadata.unsigned_overlay setMetadata flag.metadata
  have henabled : flag.unsigned.isEnabled = flag.isEnabled := rfl
  unfold evaluate
  dsimp only
  rw [henabled]
  split
  · exact congrArg (fun metadata => Except.ok (Evaluation.disabled metadata)) hmetadata.symm
  · generalize flag.unsigned.select context TargetingRules.evaluator = x at hselect
    generalize flag.select context TargetingRules.evaluator = y at hselect
    cases x with
    | error e =>
      cases y with
      | error e' => exact congrArg Except.error (Except.error.inj hselect)
      | ok v => cases hselect
    | ok v =>
      cases y with
      | error e' => cases hselect
      | ok w =>
        cases hselect
        obtain ⟨variant, reason⟩ := v
        simp only [bind, Except.bind, variant?_unsigned]
        cases flag.variant? variant with
        | none => rfl
        | some value =>
          simp only [Option.map_some, FlagValue.satisfies_unsigned]
          split
          · exact congrArg (fun metadata => Except.ok (Evaluation.value
              ⟨variant, value.unsigned, reason, metadata⟩)) hmetadata.symm
          · rfl

end FlagDefinition

/-- The outline of an evaluation is determined by the scope of its flag. -/
theorem Snapshot.outline_evaluate (snapshot : Snapshot) (flagKey : String) (kind : ValueKind)
    (context : EvaluationContext) :
    Evaluation.outline (snapshot.evaluate flagKey kind context TargetingRules.evaluator) =
      match snapshot.set.scope flagKey with
      | none => .error .flagNotFound
      | some (flag, metadata) =>
        (flag.evaluate kind context TargetingRules.evaluator metadata).mapError (·.errorType) := by
  unfold evaluate get? FlagSet.scope
  cases snapshot.set.flags.get? flagKey with
  | none => rfl
  | some flag => exact (flag.evaluate_unsigned kind context snapshot.set.metadata).symm

/-! ## What a caller is told -/

theorem FlagValue.as?_congr {v w : FlagValue} (h : v.unsigned = w.unsigned) (kind : ValueKind) :
    (v.as? kind).map (fun x => (ofCarrier kind x).unsigned) =
      (w.as? kind).map fun x => (ofCarrier kind x).unsigned := by
  cases v with
  | double x =>
    cases w with
    | double y =>
      cases kind with
      | double => exact congrArg some h
      | _ => rfl
    | _ => cases h
  | struct xs =>
    cases w with
    | struct ys =>
      cases kind with
      | struct => exact congrArg some h
      | _ => rfl
    | _ => cases h
  | _ =>
    cases w <;> cases h
    rfl

namespace ResolutionDetails

variable {kind : ValueKind} {fallback : kind.Carrier}

theorem agrees_ofError {e e' : ResolutionError} (h : e.errorType = e'.errorType) :
    Agrees kind (ofError fallback e) (ofError fallback e') :=
  ⟨rfl, rfl, congrArg some h, (FlagValue.same_iff _ _).2 rfl, (Metadata.same_iff _ _).2 rfl⟩

theorem agrees_ofDisabled {m m' : Metadata} (h : m.unsigned = m'.unsigned) :
    Agrees kind (ofDisabled fallback m) (ofDisabled fallback m') :=
  ⟨rfl, rfl, rfl, (FlagValue.same_iff _ _).2 rfl, (Metadata.same_iff _ _).2 h⟩

end ResolutionDetails

/-- Outcomes with one outline make no difference to a caller. -/
theorem Evaluation.conclude_agrees {x y : Except ResolutionError Evaluation}
    (h : outline x = outline y) (flagKey : String) (kind : ValueKind) (fallback : kind.Carrier) :
    ResolutionDetails.Agrees kind (conclude flagKey kind fallback x).1
      (conclude flagKey kind fallback y).1 := by
  cases x with
  | error e =>
    cases y with
    | error e' => exact ResolutionDetails.agrees_ofError (Except.error.inj h)
    | ok b => cases h
  | ok a =>
    cases y with
    | error e' => cases h
    | ok b =>
      have h : a.unsigned = b.unsigned := Except.ok.inj h
      cases a with
      | disabled m =>
        cases b with
        | disabled m' => exact ResolutionDetails.agrees_ofDisabled (Evaluation.disabled.inj h)
        | value _ => cases h
      | value a =>
        cases b with
        | disabled _ => cases h
        | value b =>
          obtain ⟨variant, v, reason, m⟩ := a
          obtain ⟨variant', v', reason', m'⟩ := b
          have hparts := Evaluated.mk.inj (Evaluation.value.inj h)
          obtain ⟨rfl, hv, rfl, hm⟩ := hparts
          have hvalue := FlagValue.as?_congr hv kind
          unfold conclude
          dsimp only
          cases hx : v.as? kind with
          | none =>
            rw [hx, Option.map_none, eq_comm, Option.map_eq_none_iff] at hvalue
            rw [hvalue]
            exact ResolutionDetails.agrees_ofError rfl
          | some x =>
            rw [hx, Option.map_some, eq_comm, Option.map_eq_some_iff] at hvalue
            obtain ⟨y, hy, hxy⟩ := hvalue
            rw [hy]
            exact ⟨rfl, rfl, rfl, (FlagValue.same_iff _ _).2 hxy.symm, (Metadata.same_iff _ _).2 hm⟩

end FeatureFlags
