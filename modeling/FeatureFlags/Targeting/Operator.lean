import FeatureFlags.Json.Named

/-!
# Operators of conditions

An operator compares the value of an attribute with the value of a condition. Numbers are ordered
as doubles and texts by their characters; values of other kinds are in no order. Equality is that
of documents, in which an integer and a double are never equal.
-/

namespace FeatureFlags

/-- The operators that a condition can use. -/
inductive AttributeOperator where
  | equals
  | notEquals
  | contains
  | startsWith
  | endsWith
  | greaterThan
  | lessThan
  | greaterThanOrEquals
  | lessThanOrEquals
  | isIn
  | notIn
  deriving DecidableEq

instance : Named AttributeOperator where
  all := [.equals, .notEquals, .contains, .startsWith, .endsWith, .greaterThan, .lessThan,
    .greaterThanOrEquals, .lessThanOrEquals, .isIn, .notIn]
  name
    | .equals => "equals"
    | .notEquals => "not_equals"
    | .contains => "contains"
    | .startsWith => "starts_with"
    | .endsWith => "ends_with"
    | .greaterThan => "greater_than"
    | .lessThan => "less_than"
    | .greaterThanOrEquals => "greater_than_or_equals"
    | .lessThanOrEquals => "less_than_or_equals"
    | .isIn => "in"
    | .notIn => "not_in"

namespace Json

/-- How two values compare, if they are both numbers or both texts. -/
def order? : Json → Json → Option Ordering
  | .number m, .number n => m.toDouble.value.compare? n.toDouble.value
  | .string s, .string t => some (compare s t)
  | _, _ => none

/-- Whether one of the items equals a value. -/
def holds (items : List Json) (value : Json) : Bool := items.any (·.same value)

end Json

/-- Whether a list occurs in another without gaps. -/
def occursIn (part : List Char) : List Char → Bool
  | [] => part.isEmpty
  | c :: rest => part.isPrefixOf (c :: rest) || occursIn part rest

namespace AttributeOperator

/-- Whether a test holds of two texts. -/
def onTexts (test : List Char → List Char → Bool) (actual expected : Json) : Bool :=
  match actual, expected with
  | .string a, .string e => test a.toList e.toList
  | _, _ => false

/-- Whether the order of two values passes a test. -/
def onOrder (test : Ordering → Bool) (actual expected : Json) : Bool :=
  (actual.order? expected).any test

/-- Whether the actual value stands to the expected one as the operator says. -/
def evaluate (operator : AttributeOperator) (actual expected : Json) : Bool :=
  match operator with
  | .equals => actual.same expected
  | .notEquals => !actual.same expected
  | .contains =>
    match actual, expected with
    | .string a, .string e => occursIn e.toList a.toList
    | .array items, _ => Json.holds items expected
    | _, _ => false
  | .startsWith => onTexts (fun a e => e.isPrefixOf a) actual expected
  | .endsWith => onTexts (fun a e => e.isSuffixOf a) actual expected
  | .greaterThan => onOrder (·.isGT) actual expected
  | .lessThan => onOrder (·.isLT) actual expected
  | .greaterThanOrEquals => onOrder (·.isGE) actual expected
  | .lessThanOrEquals => onOrder (·.isLE) actual expected
  | .isIn =>
    match expected with
    | .array items => Json.holds items actual
    | _ => false
  | .notIn =>
    match expected with
    | .array items => !Json.holds items actual
    | _ => true

end AttributeOperator

end FeatureFlags
