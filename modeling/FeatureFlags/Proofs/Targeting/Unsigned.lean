import FeatureFlags.Evaluation
import FeatureFlags.Proofs.Flag.Unsigned
import FeatureFlags.Proofs.Json.Reading

/-!
# Targeting up to the signs of zeros

No operator sees the sign of a zero in the value of a condition (`evaluate_unsigned`), and the
targeting tree is read blindly. So the rules of a flag select for every context what they select
without the signs of zeros, or fail with the same kind of error (`evaluator_unsigned`).
-/

namespace FeatureFlags

namespace Json

theorem holds_unsigned (items : List Json) (x : Json) : holds items x.unsigned = holds items x := by
  simp only [holds, same_unsigned_right]

theorem holds_unsignedItems (items : List Json) (x : Json) :
    holds (unsignedItems items) x = holds items x := by
  simp only [holds, unsignedItems_eq_map, List.any_map, Function.comp_def, same_unsigned_left]

theorem order?_unsigned (x y : Json) : x.order? y.unsigned = x.order? y := by
  cases x with
  | number m =>
    cases y with
    | number n =>
      cases n with
      | integer n h => rfl
      | double d => exact Double.compare?_unsigned m.toDouble d
    | _ => rfl
  | _ => cases y <;> rfl

end Json

namespace AttributeOperator

theorem onTexts_unsigned (test : List Char → List Char → Bool) (actual expected : Json) :
    onTexts test actual expected.unsigned = onTexts test actual expected := by
  cases actual <;> cases expected <;> rfl

theorem onOrder_unsigned (test : Ordering → Bool) (actual expected : Json) :
    onOrder test actual expected.unsigned = onOrder test actual expected := by
  simp only [onOrder, Json.order?_unsigned]

/-- No operator sees the sign of a zero. -/
theorem evaluate_unsigned (operator : AttributeOperator) (actual expected : Json) :
    operator.evaluate actual expected.unsigned = operator.evaluate actual expected := by
  cases operator with
  | equals => exact Json.same_unsigned_right actual expected
  | notEquals => exact congrArg not (Json.same_unsigned_right actual expected)
  | contains =>
    cases actual with
    | string a => cases expected <;> rfl
    | array items => exact Json.holds_unsigned items expected
    | _ => rfl
  | startsWith => exact onTexts_unsigned (fun a e => e.isPrefixOf a) actual expected
  | endsWith => exact onTexts_unsigned (fun a e => e.isSuffixOf a) actual expected
  | greaterThan => exact onOrder_unsigned _ actual expected
  | lessThan => exact onOrder_unsigned _ actual expected
  | greaterThanOrEquals => exact onOrder_unsigned _ actual expected
  | lessThanOrEquals => exact onOrder_unsigned _ actual expected
  | isIn =>
    cases expected with
    | array items => exact Json.holds_unsignedItems items actual
    | _ => rfl
  | notIn =>
    cases expected with
    | array items => exact congrArg not (Json.holds_unsignedItems items actual)
    | _ => rfl

end AttributeOperator

/-! ## Rules -/

/-- The condition without the signs of zeros. -/
def Condition.unsigned (condition : Condition) : Condition :=
  { condition with value := condition.value.unsigned }

/-- The rule without the signs of zeros. -/
def Rule.unsigned (rule : Rule) : Rule :=
  { rule with conditions := rule.conditions.map Condition.unsigned }

/-- The rules without the signs of zeros. -/
def TargetingRules.unsigned (targeting : TargetingRules) : TargetingRules :=
  { targeting with rules := targeting.rules.map Rule.unsigned }

theorem Condition.holds_unsigned (condition : Condition) (context : EvaluationContext) :
    condition.unsigned.holds context = condition.holds context := by
  refine congrArg (condition.actual? context).any (funext fun actual => ?_)
  exact condition.operator.evaluate_unsigned actual condition.value

theorem Rule.applies_unsigned (rule : Rule) (context : EvaluationContext) :
    rule.unsigned.applies context = rule.applies context := by
  simp only [applies, unsigned, List.all_map, Function.comp_def, Condition.holds_unsigned]

theorem TargetingRules.select_unsigned (targeting : TargetingRules) (flagKey : String)
    (context : EvaluationContext) :
    targeting.unsigned.select flagKey context = targeting.select flagKey context := by
  simp only [select, unsigned, List.find?_map, Function.comp_def, Rule.applies_unsigned]
  cases targeting.rules.find? (·.applies context) <;> rfl

/-! ## Reading rules -/

section Reading

open Json (Record)
open Json.Field (blind_needed blind_defaulted)
open Json.Reader (Blind blind_json blind_stringAs blind_uint32 blind_variant)

theorem Condition.blind_reader : (record.reader {}).Blind unsigned := by
  refine Record.blind (fun field hfield => ?_) rfl
  simp only [record, List.mem_cons, List.not_mem_nil, or_false] at hfield
  rcases hfield with rfl | rfl | rfl
  · exact blind_needed (blind_stringAs _) fun _ _ => rfl
  · exact blind_needed (blind_variant _) fun _ _ => rfl
  · exact blind_needed blind_json fun _ _ => rfl

theorem Rule.blind_reader : (record.reader {}).Blind unsigned := by
  refine Record.blind (fun field hfield => ?_) rfl
  simp only [record, List.mem_cons, List.not_mem_nil, or_false] at hfield
  rcases hfield with rfl | rfl
  · exact blind_defaulted Condition.blind_reader.list fun _ _ => rfl
  · exact blind_needed (blind_stringAs _) fun _ _ => rfl

theorem Bucket.blind_reader : (record.reader {}).Blind id := by
  refine Record.blind (fun field hfield => ?_) rfl
  simp only [record, List.mem_cons, List.not_mem_nil, or_false] at hfield
  rcases hfield with rfl | rfl
  · exact blind_needed (blind_stringAs _) fun _ _ => rfl
  · exact blind_needed blind_uint32 fun _ _ => rfl

theorem Fractional.blind_reader : (record.reader {}).Blind id := by
  refine Record.blind (fun field hfield => ?_) rfl
  simp only [record, List.mem_cons, List.not_mem_nil, or_false] at hfield
  rcases hfield with rfl | rfl
  · exact blind_defaulted (blind_stringAs _).optional fun v s => by rw [Option.map_id]; rfl
  · exact blind_needed Bucket.blind_reader.list fun v s => by rw [List.map_id]; rfl

theorem TargetingRules.blind_reader : (record.reader {}).Blind unsigned := by
  refine Record.blind (fun field hfield => ?_) rfl
  simp only [record, List.mem_cons, List.not_mem_nil, or_false] at hfield
  rcases hfield with rfl | rfl
  · exact blind_defaulted Rule.blind_reader.list fun _ _ => rfl
  · exact blind_defaulted Fractional.blind_reader.optional fun v s => by rw [Option.map_id]; rfl

end Reading

/-- Without the signs of zeros the rules of a flag select the same, or fail in the same way. -/
theorem TargetingRules.evaluator_unsigned (flag : FlagDefinition) (context : EvaluationContext) :
    (evaluator flag.unsigned context).mapError TargetingError.errorType =
      (evaluator flag context).mapError TargetingError.errorType := by
  unfold evaluator
  cases htree : flag.targeting with
  | none => simp only [FlagDefinition.unsigned, htree, Option.map_none]
  | some tree =>
    have alike : Alike (fun a b => a = b.unsigned) (ofJson tree.unsigned) (ofJson tree) :=
      blind_reader tree
    simp only [FlagDefinition.unsigned, htree, Option.map_some]
    generalize ofJson tree.unsigned = x at alike
    generalize ofJson tree = y at alike
    cases alike with
    | ok related =>
      rw [related]
      dsimp only
      rw [select_unsigned]
    | error => rfl

end FeatureFlags
