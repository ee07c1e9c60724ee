import FeatureFlags.Proofs.Binary64.Integers
import FeatureFlags.Proofs.Json.Unsigned
import FeatureFlags.Targeting.Operator

/-!
# The algebra of the operators

Numbers and texts are the values that have an order (`Json.IsOrdered`), and two of one kind are
`Comparable`. The order of two values turns round when they are exchanged (`order?_swap`), is
transitive (`order?_trans`) and takes equal values for equal (`order?_of_same`). From these facts
the operators fit together as their names promise (`operators_agree`).

Numbers are ordered as doubles, and so integers are ordered by the integers of 53 digits that are
nearest to them. Two integers that share the nearest one are in no order, although they are not
equal; apart from that the operators order integers as the numbers they are
(`integers_ordered_by_nearest`).
-/

namespace FeatureFlags

namespace Json

/-! ## The order of values -/

/-- A value of a kind that has an order. -/
def IsOrdered : Json → Prop
  | .number _ | .string _ => True
  | _ => False

/-- Two numbers or two texts. -/
def Comparable : Json → Json → Prop
  | .number _, .number _ | .string _, .string _ => True
  | _, _ => False

/-- Where a number stands in the order of the doubles. -/
def Number.ordinal (n : Number) : Int := n.toDouble.value.ordinal

theorem Number.ordinal_eq_of_same {m n : Number} (h : m.same n = true) : m.ordinal = n.ordinal := by
  cases m with
  | integer a ha =>
    cases n with
    | integer b hb =>
      have equal : a = b := by simpa [Number.same] using h
      subst equal
      rfl
    | double y => cases h
  | double x =>
    cases n with
    | integer b hb => cases h
    | double y => exact beq_iff_eq.1 h

variable {a b c : Json}

/-- Numbers compare as their places in the order of the doubles. -/
theorem order?_number (m n : Number) :
    order? (.number m) (.number n) = some (compare m.ordinal n.ordinal) :=
  Double.compare?_eq m.toDouble n.toDouble

theorem order?_string (s t : String) : order? (.string s) (.string t) = some (compare s t) := rfl

/-- All the ways in which two values can be comparable. -/
theorem comparable_cases (h : a.Comparable b) :
    (∃ m n, a = .number m ∧ b = .number n) ∨ ∃ s t, a = .string s ∧ b = .string t := by
  cases a <;> cases b <;> try cases h
  · exact .inl ⟨_, _, rfl, rfl⟩
  · exact .inr ⟨_, _, rfl, rfl⟩

/-- Values are in an order exactly if they are comparable. -/
theorem isSome_order? : (a.order? b).isSome = true ↔ a.Comparable b := by
  constructor
  · intro h
    cases a <;> cases b <;> trivial
  · intro h
    obtain ⟨m, n, rfl, rfl⟩ | ⟨s, t, rfl, rfl⟩ := comparable_cases h
    · rw [order?_number]
      rfl
    · rfl

theorem Comparable.symm (h : a.Comparable b) : b.Comparable a := by
  obtain ⟨m, n, rfl, rfl⟩ | ⟨s, t, rfl, rfl⟩ := comparable_cases h <;> trivial

theorem order?_eq_none (h : ¬ a.Comparable b) : a.order? b = none := by
  rwa [← isSome_order?, Bool.not_eq_true, Option.isSome_eq_false_iff,
    Option.isNone_iff_eq_none] at h

/-- The order turns round when the values are exchanged. -/
theorem order?_swap (a b : Json) : b.order? a = (a.order? b).map Ordering.swap := by
  by_cases h : a.Comparable b
  · obtain ⟨m, n, rfl, rfl⟩ | ⟨s, t, rfl, rfl⟩ := comparable_cases h
    · rw [order?_number, order?_number, Std.OrientedOrd.eq_swap (a := n.ordinal)]
      rfl
    · rw [order?_string, order?_string, Std.OrientedOrd.eq_swap (a := t)]
      rfl
  · rw [order?_eq_none h, order?_eq_none fun h' => h h'.symm]
    rfl

/-- What is at least as great as something is at least as great as what that is as great as. -/
theorem order?_trans (h : (a.order? b).any (·.isGE) = true)
    (h' : (b.order? c).any (·.isGE) = true) :
    (a.order? c).any (·.isGE) = true := by
  have some_ab : a.Comparable b := by
    rw [← isSome_order?]
    cases hab : a.order? b <;> simp [hab] at h ⊢
  have some_bc : b.Comparable c := by
    rw [← isSome_order?]
    cases hbc : b.order? c <;> simp [hbc] at h' ⊢
  obtain ⟨m, n, rfl, rfl⟩ | ⟨s, t, rfl, rfl⟩ := comparable_cases some_ab
  · obtain ⟨_, p, heq, rfl⟩ | ⟨_, _, heq, -⟩ := comparable_cases some_bc
    · simp only [order?_number, Option.any_some] at h h' ⊢
      exact Std.TransOrd.isGE_trans h h'
    · cases heq
  · obtain ⟨_, _, heq, -⟩ | ⟨_, u, heq, rfl⟩ := comparable_cases some_bc
    · cases heq
    · exact Std.TransOrd.isGE_trans h h'

/-- Equal numbers and equal texts compare as equal. -/
theorem order?_of_same (ordered : a.IsOrdered ∨ b.IsOrdered) (h : a.same b = true) :
    a.order? b = some .eq := by
  cases a <;> cases b <;> first | cases h | skip
  case number m n =>
    rw [order?_number, Number.ordinal_eq_of_same h, Std.compare_self]
  case string s t =>
    have equal : s = t := by simpa [same] using h
    rw [equal, order?_string, Std.compare_self]
  all_goals exact (ordered.elim id id).elim

end Json

namespace AttributeOperator

/-! ## Laws of the operators -/

/-- The operators that look at the order of their values. -/
def orderings : List AttributeOperator :=
  [greaterThan, lessThan, greaterThanOrEquals, lessThanOrEquals]

/-- A test of the order, with the values exchanged. -/
theorem onOrder_swap (test : Ordering → Bool) (a b : Json) :
    onOrder test b a = onOrder (fun o => test o.swap) a b := by
  rw [onOrder, onOrder, Json.order?_swap a b]
  cases a.order? b <;> rfl

/-- The operators fit together. The negative ones are the negations of the others, and membership is
containment with the values exchanged. The orderings are dual to each other; of two comparable values
one is greater or they are on a par, and others are in no order at all; the order is transitive, and
equal values are on a par. -/
theorem operators_agree (a b c : Json) (items : List Json) :
    notEquals.evaluate a b = !equals.evaluate a b ∧
    notIn.evaluate a b = !isIn.evaluate a b ∧
    isIn.evaluate a (.array items) = contains.evaluate (.array items) a ∧
    greaterThan.evaluate a b = lessThan.evaluate b a ∧
    greaterThanOrEquals.evaluate a b = lessThanOrEquals.evaluate b a ∧
    (a.Comparable b →
      [greaterThan.evaluate a b, lessThan.evaluate a b,
        greaterThanOrEquals.evaluate a b && lessThanOrEquals.evaluate a b].count true = 1) ∧
    (¬ a.Comparable b → ∀ operator ∈ orderings, operator.evaluate a b = false) ∧
    (greaterThanOrEquals.evaluate a b = true → greaterThanOrEquals.evaluate b c = true →
      greaterThanOrEquals.evaluate a c = true) ∧
    (a.IsOrdered ∨ b.IsOrdered → equals.evaluate a b = true →
      greaterThanOrEquals.evaluate a b = true ∧ lessThanOrEquals.evaluate a b = true) := by
  refine ⟨rfl, ?_, rfl, ?_, ?_, fun comparable => ?_, fun incomparable => ?_, Json.order?_trans,
    fun ordered same => ?_⟩
  · cases b <;> rfl
  · refine Eq.trans ?_ (onOrder_swap Ordering.isLT a b).symm
    exact congrArg (onOrder · a b) (funext fun o => by cases o <;> rfl)
  · refine Eq.trans ?_ (onOrder_swap Ordering.isLE a b).symm
    exact congrArg (onOrder · a b) (funext fun o => by cases o <;> rfl)
  · obtain ⟨o, ho⟩ := Option.isSome_iff_exists.1 (Json.isSome_order?.2 comparable)
    simp only [evaluate, onOrder, ho, Option.any_some]
    cases o <;> rfl
  · have unordered := Json.order?_eq_none incomparable
    simp only [orderings, List.forall_mem_cons, evaluate, onOrder, unordered, Option.any_none,
      List.not_mem_nil, false_implies, implies_true, and_self]
  · have par := Json.order?_of_same ordered same
    simp only [evaluate, onOrder, par, Option.any_some]
    exact ⟨rfl, rfl⟩

/-- The laws at an integer and two doubles, one of them a negative zero, and at a text. -/
theorem operators_agree_mixed_kinds :
    let ten : Json := .number (.integer 10 (by decide))
    let half : Json := .number (.double ⟨.ofBits 0x4023000000000000, by decide⟩)
    let nine : Json := .number (.integer 9 (by decide))
    let zero (negative : Bool) : Json :=
      .number (.double ⟨.signedZero negative, by cases negative <;> decide⟩)
    ten.Comparable half ∧
      [greaterThan.evaluate ten half, lessThan.evaluate ten half,
        greaterThanOrEquals.evaluate ten half && lessThanOrEquals.evaluate ten half].count true = 1 ∧
    greaterThanOrEquals.evaluate ten half = true ∧ greaterThanOrEquals.evaluate half nine = true ∧
      greaterThanOrEquals.evaluate ten nine = true ∧
    ¬ (Json.string "b").Comparable ten ∧
      (∀ operator ∈ orderings, operator.evaluate (.string "b") ten = false) ∧
    equals.evaluate (zero true) (zero false) = true ∧
      lessThanOrEquals.evaluate (zero true) (zero false) = true := by
  intro ten half nine zero
  obtain ⟨-, -, -, -, -, one, -, transitive, -⟩ := operators_agree ten half nine []
  obtain ⟨-, -, -, -, -, -, none, -⟩ := operators_agree (.string "b") ten .null []
  obtain ⟨-, -, -, -, -, -, -, -, par⟩ := operators_agree (zero true) (zero false) .null []
  have first : greaterThanOrEquals.evaluate ten half = true := by decide +kernel
  have second : greaterThanOrEquals.evaluate half nine = true := by decide +kernel
  have zeros : equals.evaluate (zero true) (zero false) = true := by decide +kernel
  exact ⟨trivial, one trivial, first, second, transitive first second, id, none id, zeros,
    (par (.inl trivial) zeros).2⟩

/-! ## Integers -/

open Json (InRange)
open Binary64 (nearestInt)

/-- The operators order two integers as the numbers they are. -/
structure OrdersExactly {a b : Int} (ha : InRange a) (hb : InRange b) : Prop where
  greater : greaterThan.evaluate (.number (.integer a ha)) (.number (.integer b hb)) = true ↔ b < a
  less : lessThan.evaluate (.number (.integer a ha)) (.number (.integer b hb)) = true ↔ a < b
  atLeast : greaterThanOrEquals.evaluate (.number (.integer a ha)) (.number (.integer b hb)) = true ↔
    b ≤ a
  atMost : lessThanOrEquals.evaluate (.number (.integer a ha)) (.number (.integer b hb)) = true ↔
    a ≤ b
  equal : equals.evaluate (.number (.integer a ha)) (.number (.integer b hb)) = true ↔
    greaterThanOrEquals.evaluate (.number (.integer a ha)) (.number (.integer b hb)) = true ∧
      lessThanOrEquals.evaluate (.number (.integer a ha)) (.number (.integer b hb)) = true

/-- Integers compare as the integers of 53 digits that are nearest to them. -/
theorem onOrder_integers (test : Ordering → Bool) {a b : Int} (ha : InRange a) (hb : InRange b) :
    onOrder test (.number (.integer a ha)) (.number (.integer b hb)) =
      test (compare (nearestInt a) (nearestInt b)) := by
  rw [onOrder, Json.order?_number, Option.any_some]
  exact congrArg test (Binary64.compare_ordinal_ofInt (Json.Number.natAbs_le_of_inRange ha)
    (Json.Number.natAbs_le_of_inRange hb))

/-- Integers are ordered by the integers of 53 digits that are nearest to them. One that is greater
is found to be greater unless both share the nearest one, in which case each is at least and at most
the other. So the operators order two integers exactly if these are equal or have different nearest
ones, and they fail only for integers from 2⁵³ on that lie at most 2¹¹ apart. -/
theorem integers_ordered_by_nearest {a b : Int} (ha : InRange a) (hb : InRange b) :
    let x : Json := .number (.integer a ha)
    let y : Json := .number (.integer b hb)
    (greaterThan.evaluate x y = true ↔ b < a ∧ nearestInt a ≠ nearestInt b) ∧
    (lessThan.evaluate x y = true ↔ a < b ∧ nearestInt a ≠ nearestInt b) ∧
    (greaterThanOrEquals.evaluate x y = true ↔ b ≤ a ∨ nearestInt a = nearestInt b) ∧
    (lessThanOrEquals.evaluate x y = true ↔ a ≤ b ∨ nearestInt a = nearestInt b) ∧
    (equals.evaluate x y = true ↔ a = b) ∧
    (OrdersExactly ha hb ↔ a = b ∨ nearestInt a ≠ nearestInt b) ∧
    (OrdersExactly ha hb ∨
      0x20000000000000 ≤ a.natAbs ∧ 0x20000000000000 ≤ b.natAbs ∧ (a - b).natAbs ≤ 2048) := by
  intro x y
  have up := Binary64.nearestInt_mono (a := a) (b := b)
  have down := Binary64.nearestInt_mono (a := b) (b := a)
  have greater : greaterThan.evaluate x y = true ↔ b < a ∧ nearestInt a ≠ nearestInt b := by
    rw [show greaterThan.evaluate x y = _ from onOrder_integers _ ha hb, Ordering.isGT_iff_eq_gt,
      Int.compare_eq_gt]
    omega
  have less : lessThan.evaluate x y = true ↔ a < b ∧ nearestInt a ≠ nearestInt b := by
    rw [show lessThan.evaluate x y = _ from onOrder_integers _ ha hb, Ordering.isLT_iff_eq_lt,
      Int.compare_eq_lt]
    omega
  have atLeast : greaterThanOrEquals.evaluate x y = true ↔
      b ≤ a ∨ nearestInt a = nearestInt b := by
    rw [show greaterThanOrEquals.evaluate x y = _ from onOrder_integers _ ha hb, Int.isGE_compare]
    omega
  have atMost : lessThanOrEquals.evaluate x y = true ↔ a ≤ b ∨ nearestInt a = nearestInt b := by
    rw [show lessThanOrEquals.evaluate x y = _ from onOrder_integers _ ha hb, Int.isLE_compare]
    omega
  have equal : equals.evaluate x y = true ↔ a = b := beq_iff_eq
  have exact_ : OrdersExactly ha hb ↔ a = b ∨ nearestInt a ≠ nearestInt b := by
    constructor
    · intro h
      have := h.atLeast.symm.trans atLeast
      have := h.atMost.symm.trans atMost
      omega
    · intro h
      refine ⟨greater.trans ?_, less.trans ?_, atLeast.trans ?_, atMost.trans ?_, ?_⟩
      · omega
      · omega
      · omega
      · omega
      · rw [equal, atLeast, atMost]
        omega
  refine ⟨greater, less, atLeast, atMost, equal, exact_, ?_⟩
  rw [exact_]
  by_cases apart : a = b ∨ nearestInt a ≠ nearestInt b
  · exact .inl apart
  · rw [not_or, not_not] at apart
    exact .inr (Binary64.large_and_close_of_nearestInt_eq (Json.Number.natAbs_le_of_inRange ha)
      (Json.Number.natAbs_le_of_inRange hb) apart.2 apart.1)

/-- Two large integers that are ordered as they should be: they are 4 apart. -/
theorem integers_ordered_by_nearest_four_apart :
    nearestInt 0x20000000000004 ≠ nearestInt 0x20000000000000 ∧
      OrdersExactly (show InRange 0x20000000000004 by decide)
        (show InRange 0x20000000000000 by decide) := by
  have ha : InRange 0x20000000000004 := by decide
  have hb : InRange 0x20000000000000 := by decide
  have apart : nearestInt 0x20000000000004 ≠ nearestInt 0x20000000000000 := by decide
  obtain ⟨-, -, -, -, -, exact_, -⟩ := integers_ordered_by_nearest ha hb
  exact ⟨apart, exact_.2 (.inr apart)⟩

/-- The least natural number that is no double is not found to be greater than the one before it. -/
theorem not_ordersExactly :
    ¬ OrdersExactly (show InRange 0x20000000000001 by decide)
      (show InRange 0x20000000000000 by decide) := by
  intro h
  have missed : ¬ greaterThan.evaluate (.number (.integer 0x20000000000001 (by decide)))
      (.number (.integer 0x20000000000000 (by decide))) = true := by decide +kernel
  exact missed (h.greater.2 (by decide))

end AttributeOperator

end FeatureFlags
