import FeatureFlags.Targeting.Rules

/-!
# Evaluating a flag

A disabled flag is not evaluated. Without targeting the default variant is served; with targeting
the selected one, or the default variant if nothing is selected. The variant has to exist and to
hold a value of the requested kind.
-/

namespace FeatureFlags

/-- The outcome of evaluating a flag without an error. -/
inductive Evaluation where
  | value (evaluated : Evaluated)
  /-- The flag is disabled, and the caller's default is to be served. -/
  | disabled (metadata : Metadata)

namespace FlagDefinition

/-- The variant to serve, and why. -/
def select (flag : FlagDefinition) (context : EvaluationContext) (evaluator : TargetingEvaluator) :
    Except ResolutionError (String × Reason) :=
  match flag.targeting with
  | none => .ok (flag.defaultVariant, .static)
  | some _ =>
    match evaluator flag context with
    | .ok (some variant) => .ok (variant, .targetingMatch)
    | .ok none => .ok (flag.defaultVariant, .default)
    | .error error => throw ⟨error.errorType, error.message⟩

/-- Evaluates a flag for a caller who asks for a kind. The flag's own metadata overlays that of its
set. -/
def evaluate (flag : FlagDefinition) (requested : ValueKind) (context : EvaluationContext)
    (evaluator : TargetingEvaluator) (setMetadata : Metadata) :
    Except ResolutionError Evaluation := do
  let metadata := setMetadata.overlay flag.metadata
  if !flag.isEnabled then return .disabled metadata
  let (variant, reason) ← flag.select context evaluator
  match flag.variant? variant with
  | none =>
    throw ⟨.general, "flag '" ++ flag.key ++ "' selected unknown variant '" ++ variant ++ "'"⟩
  | some value =>
    if value.satisfies requested then return .value ⟨variant, value, reason, metadata⟩
    else
      throw ⟨.typeMismatch, "flag '" ++ flag.key ++ "' is " ++ Named.name value.kind ++ " but " ++
        Named.name requested ++ " was requested"⟩

end FlagDefinition

end FeatureFlags
