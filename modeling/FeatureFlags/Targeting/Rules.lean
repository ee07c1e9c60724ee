import FeatureFlags.Context
import FeatureFlags.Digest.Murmur3
import FeatureFlags.Flag.Definition
import FeatureFlags.Resolution
import FeatureFlags.Targeting.Operator

/-!
# Targeting rules

The targeting tree of a flag holds rules, which are tried in order: the first one whose conditions
all hold selects its variant. If none does, a fractional rollout may assign the targeting key to one
of several weighted buckets, always the same one for the same key. Otherwise nothing is selected.
-/

namespace FeatureFlags

/-- Why no variant can be selected. -/
inductive TargetingError where
  /-- The context lacks what the rules need. -/
  | invalidContext (reason : String)
  /-- The rules make no sense. -/
  | rule (reason : String)
  deriving DecidableEq

namespace TargetingError

def errorType : TargetingError → ErrorType
  | invalidContext _ => .invalidContext
  | rule _ => .general

def message : TargetingError → String
  | invalidContext reason => "Invalid evaluation context: " ++ reason
  | rule reason => "Invalid targeting rule: " ++ reason

end TargetingError

/-- Selects a variant of a flag for a context, or none. -/
abbrev TargetingEvaluator :=
  FlagDefinition → EvaluationContext → Except TargetingError (Option String)

/-- A test of one attribute. -/
structure Condition where
  subject : String := ""
  operator : AttributeOperator := .equals
  value : Json := .null

/-- A variant for the contexts in which all conditions hold. -/
structure Rule where
  conditions : List Condition := []
  variant : String := ""

/-- A variant with its share in a rollout. -/
structure Bucket where
  variant : String := ""
  weight : UInt32 := 0

/-- A rollout that divides the targeting keys among buckets. -/
structure Fractional where
  seed : Option String := none
  buckets : List Bucket := []

/-- What a targeting tree stands for. -/
structure TargetingRules where
  rules : List Rule := []
  fractional : Option Fractional := none

namespace Condition

/-- The form of a condition in a document. -/
def record : Json.Record Condition where
  name := "Condition"
  fields := [
    .needed "attribute" Json.Reader.string fun v c => { c with subject := v },
    .needed "operator" Named.reader fun v c => { c with operator := v },
    .needed "value" Json.Reader.json fun v c => { c with value := v }]
  closed := true

/-- The attribute name that stands for the targeting key. -/
def targetingKeyName : String := "targetingKey"

/-- What a condition looks at. -/
def actual? (condition : Condition) (context : EvaluationContext) : Option Json :=
  if condition.subject = targetingKeyName then context.targetingKey.map .string
  else context.attribute? condition.subject

/-- Whether a condition holds; it never does where there is nothing to look at. -/
def holds (condition : Condition) (context : EvaluationContext) : Bool :=
  (condition.actual? context).any (condition.operator.evaluate · condition.value)

end Condition

namespace Rule

/-- The form of a rule in a document. -/
def record : Json.Record Rule where
  name := "Rule"
  fields := [
    .defaulted "conditions" (Json.Reader.list (Condition.record.reader {}))
      fun v r => { r with conditions := v },
    .needed "variant" Json.Reader.string fun v r => { r with variant := v }]
  closed := true

/-- Whether all conditions hold. -/
def applies (rule : Rule) (context : EvaluationContext) : Bool :=
  rule.conditions.all (·.holds context)

end Rule

namespace Bucket

/-- The form of a bucket in a document. -/
def record : Json.Record Bucket where
  name := "Bucket"
  fields := [
    .needed "variant" Json.Reader.string fun v b => { b with variant := v },
    .needed "weight" Json.Reader.uint32 fun v b => { b with weight := v }]
  closed := true

/-- The bucket in whose range a point lies, when the ranges are laid end to end from `start` on. The
ends of the ranges are words of 32 bits. -/
def at? (point : UInt32) (start : UInt32) : List Bucket → Option Bucket
  | [] => none
  | bucket :: rest =>
    let stop := start + bucket.weight
    if point < stop then some bucket else at? point stop rest

end Bucket

namespace Fractional

/-- The form of a rollout in a document. -/
def record : Json.Record Fractional where
  name := "Fractional"
  fields := [
    .defaulted "seed" (Json.Reader.optional Json.Reader.string) fun v f => { f with seed := v },
    .needed "buckets" (Json.Reader.list (Bucket.record.reader {}))
      fun v f => { f with buckets := v }]
  closed := true

/-- The sum of the weights, as a word of 32 bits. -/
def totalWeight (fractional : Fractional) : UInt32 :=
  fractional.buckets.foldl (fun total bucket => total + bucket.weight) 0

/-- The hash that places a targeting key, which is hashed behind the seed or the flag's key. -/
def hash (fractional : Fractional) (flagKey targetingKey : String) : UInt32 :=
  Murmur3.hash 0 (fractional.seed.getD flagKey ++ targetingKey).toUTF8.toList

/-- The variant of the bucket that the targeting key falls into. -/
def select (fractional : Fractional) (flagKey : String) (context : EvaluationContext) :
    Except TargetingError String :=
  match context.targetingKey with
  | none => throw (.invalidContext "fractional rollout requires a targeting key")
  | some targetingKey =>
    if fractional.totalWeight = 0 then throw (.rule "fractional buckets have zero total weight")
    else
      let point := fractional.hash flagKey targetingKey % fractional.totalWeight
      match Bucket.at? point 0 fractional.buckets with
      | some bucket => .ok bucket.variant
      | none => throw (.rule "fractional bucket selection failed")

end Fractional

namespace TargetingRules

/-- The form of a targeting tree. -/
def record : Json.Record TargetingRules where
  name := "TargetingRules"
  fields := [
    .defaulted "rules" (Json.Reader.list (Rule.record.reader {})) fun v t => { t with rules := v },
    .defaulted "fractional" (Json.Reader.optional (Fractional.record.reader {}))
      fun v t => { t with fractional := v }]
  closed := true

/-- What a targeting tree stands for. -/
def ofJson (tree : Json) : Except Json.ReadError TargetingRules := (record.reader {}).ofTree tree

/-- The variant that the rules select. -/
def select (targeting : TargetingRules) (flagKey : String) (context : EvaluationContext) :
    Except TargetingError (Option String) :=
  match targeting.rules.find? (·.applies context) with
  | some rule => .ok (some rule.variant)
  | none =>
    match targeting.fractional with
    | some fractional => (fractional.select flagKey context).map some
    | none => .ok none

/-- Selects a variant by the flag's own targeting tree. -/
def evaluator : TargetingEvaluator := fun flag context =>
  match flag.targeting with
  | none => .ok none
  | some tree =>
    match ofJson tree with
    | .error error => throw (.rule error.message)
    | .ok targeting => targeting.select flag.key context

end TargetingRules

end FeatureFlags
