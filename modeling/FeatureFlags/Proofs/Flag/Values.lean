import FeatureFlags.Flag.Value
import FeatureFlags.Proofs.Binary64.Nearest

/-!
# What values stand for

`Json.StandsFor` says which value of a variant a tree stands for, and `Json.StandsForScalar` which
scalar: a number is an integer if it fits into 64 signed bits, and otherwise the double that it is
or that is nearest to it. `FlagValue.ConvertsTo` says what a caller who asks for a kind gets of a
value: the value itself if it is of that kind, and the nearest double of an integer.

Each relation is given by what it holds of, and the function that computes it finds just that
(`FlagValue.ofJson?_eq_some`, `MetadataValue.ofJson?_eq_some`, `FlagValue.as?_eq_some`).
-/

namespace FeatureFlags

/-- Of the finite doubles, just the one that an integer is rounded to is nearest to it. -/
theorem Double.isNearestTo_iff {x : Double} {n : Int} (h : n.natAbs ≤ 0x10000000000000000) :
    x.value.IsNearestTo n ↔ ⟨Binary64.ofInt n, Binary64.isFinite_ofInt h⟩ = x := by
  rw [Binary64.isNearestTo_iff h]
  constructor
  · intro rounded
    cases x
    cases rounded
    rfl
  · rintro rfl
    rfl

namespace Json

/-! ## Numbers -/

namespace Number

/-- The number is an integer that fits into 64 signed bits. -/
inductive IsInteger : Number → Int64 → Prop
  | integer (i : Int64) (inRange : InRange i.toInt) : IsInteger (.integer i.toInt inRange) i

/-- The number does not fit, and the double is it or the nearest one to it. -/
inductive IsDouble : Number → Double → Prop
  | double (x : Double) : IsDouble (.double x) x
  | beyond {n : Int} {x : Double} (inRange : InRange n) (large : 0x8000000000000000 ≤ n)
      (nearest : x.value.IsNearestTo n) : IsDouble (.integer n inRange) x

theorem toInt64?_eq_some {number : Number} {i : Int64} :
    number.toInt64? = some i ↔ number.IsInteger i := by
  constructor
  · intro h
    rcases number with ⟨n, inRange⟩ | x
    · rw [toInt64?] at h
      split at h
      · rename_i small
        cases h
        have exact_ : (Int64.ofInt n).toInt = n := by
          unfold InRange at inRange
          exact Int64.toInt_ofInt_of_le (by omega) (by omega)
        have is := IsInteger.integer (Int64.ofInt n) (exact_.symm ▸ inRange)
        simpa only [exact_] using is
      · cases h
    · cases h
  · rintro ⟨inRange⟩
    have small : i.toInt < 0x8000000000000000 := i.toInt_lt
    rw [toInt64?, if_pos small, Int64.ofInt_toInt]

/-- Of a number that does not fit, the double is found. -/
theorem isDouble_iff {number : Number} {x : Double} :
    number.IsDouble x ↔ number.toInt64? = none ∧ number.toDouble = x := by
  rcases number with ⟨n, inRange⟩ | y
  · have large : toInt64? (.integer n inRange) = none ↔ 0x8000000000000000 ≤ n := by
      rw [toInt64?, ite_eq_right_iff]
      simp
    have rounded := Double.isNearestTo_iff (x := x) (natAbs_le_of_inRange inRange)
    rw [large]
    constructor
    · rintro (_ | ⟨-, large, nearest⟩)
      exact ⟨large, rounded.1 nearest⟩
    · rintro ⟨large, same⟩
      exact .beyond inRange large (rounded.2 same)
  · constructor
    · rintro ⟨⟩
      exact ⟨rfl, rfl⟩
    · rintro ⟨-, rfl⟩
      exact .double y

end Number

/-! ## Trees -/

/-- The tree stands for a value of a variant. -/
inductive StandsFor : Json → FlagValue → Prop
  | bool (b : Bool) : StandsFor (.bool b) (.bool b)
  | string (s : String) : StandsFor (.string s) (.string s)
  | integer {n : Number} {i : Int64} (is : n.IsInteger i) : StandsFor (.number n) (.integer i)
  | double {n : Number} {x : Double} (is : n.IsDouble x) : StandsFor (.number n) (.double x)
  | struct (members : Entries Json) : StandsFor (.object members) (.struct members)

/-- The tree stands for a scalar. -/
inductive StandsForScalar : Json → MetadataValue → Prop
  | bool (b : Bool) : StandsForScalar (.bool b) (.bool b)
  | string (s : String) : StandsForScalar (.string s) (.string s)
  | integer {n : Number} {i : Int64} (is : n.IsInteger i) : StandsForScalar (.number n) (.integer i)
  | double {n : Number} {x : Double} (is : n.IsDouble x) : StandsForScalar (.number n) (.double x)

end Json

open Json (StandsFor StandsForScalar)
open Json.Number (toInt64?_eq_some isDouble_iff)

namespace FlagValue

variable {tree : Json} {value : FlagValue} {n : Json.Number}

theorem ofNumber_eq_integer {i : Int64} : ofNumber n = integer i ↔ n.IsInteger i := by
  rw [← toInt64?_eq_some]
  unfold ofNumber
  cases n.toInt64? <;> simp

theorem ofNumber_eq_double {x : Double} : ofNumber n = double x ↔ n.IsDouble x := by
  rw [isDouble_iff]
  unfold ofNumber
  cases n.toInt64? <;> simp

theorem ofJson?_eq_some : ofJson? tree = some value ↔ tree.StandsFor value := by
  constructor
  · intro h
    cases tree with
    | bool b => cases h; exact .bool b
    | string s => cases h; exact .string s
    | number n =>
      rcases (show ofNumber n = value from Option.some.inj h) with rfl
      cases found : ofNumber n with
      | integer i => exact .integer (ofNumber_eq_integer.1 found)
      | double x => exact .double (ofNumber_eq_double.1 found)
      | _ =>
        unfold ofNumber at found
        split at found <;> cases found
    | object members => cases h; exact .struct members
    | array _ => cases h
    | null => cases h
  · rintro (_ | _ | is | is | _)
    · rfl
    · rfl
    · exact congrArg some (ofNumber_eq_integer.2 is)
    · exact congrArg some (ofNumber_eq_double.2 is)
    · rfl

/-- A tree stands for one value at most. -/
theorem eq_of_standsFor {other : FlagValue} (h : tree.StandsFor value)
    (h' : tree.StandsFor other) : value = other :=
  Option.some.inj ((ofJson?_eq_some.2 h).symm.trans (ofJson?_eq_some.2 h'))

/-! ## Kinds -/

/-- A caller who asks for a kind gets this of a value. -/
inductive ConvertsTo : FlagValue → (kind : ValueKind) → kind.Carrier → Prop
  | bool (b : Bool) : ConvertsTo (.bool b) .boolean b
  | string (s : String) : ConvertsTo (.string s) .string s
  | integer (n : Int64) : ConvertsTo (.integer n) .integer n
  | double (x : Double) : ConvertsTo (.double x) .double x
  | struct (members : Entries Json) : ConvertsTo (.struct members) .struct members
  /-- An integer is widened to the nearest double. -/
  | widened {n : Int64} {x : Double} (nearest : x.value.IsNearestTo n.toInt) :
      ConvertsTo (.integer n) .double x

theorem isNearestTo_iff_widen {n : Int64} {x : Double} :
    x.value.IsNearestTo n.toInt ↔ widen n = x := by
  have low := n.le_toInt
  have high := n.toInt_lt
  exact Double.isNearestTo_iff (by omega)

theorem as?_eq_some {kind : ValueKind} {result : kind.Carrier} :
    value.as? kind = some result ↔ value.ConvertsTo kind result := by
  constructor
  · intro h
    cases value <;> cases kind <;> cases h
    · exact .bool _
    · exact .string _
    · exact .integer _
    · exact .widened (isNearestTo_iff_widen.2 rfl)
    · exact .double _
    · exact .struct _
  · rintro (_ | _ | _ | _ | _ | nearest)
    · rfl
    · rfl
    · rfl
    · rfl
    · rfl
    · exact congrArg some (isNearestTo_iff_widen.1 nearest)

/-- Of a value, a caller gets one result at most. -/
theorem eq_of_convertsTo {kind : ValueKind} {x y : kind.Carrier} (h : value.ConvertsTo kind x)
    (h' : value.ConvertsTo kind y) : x = y :=
  Option.some.inj ((as?_eq_some.2 h).symm.trans (as?_eq_some.2 h'))

end FlagValue

namespace MetadataValue

variable {tree : Json} {value : MetadataValue}

/-- A tree stands for a scalar if it stands for the same value of a variant. -/
theorem standsForScalar_iff : tree.StandsForScalar value ↔ tree.StandsFor value.toFlagValue := by
  constructor
  · rintro (_ | _ | is | is)
    · exact .bool _
    · exact .string _
    · exact .integer is
    · exact .double is
  · intro h
    cases value <;> rcases h with _ | _ | is | is | _
    · exact .bool _
    · exact .string _
    · exact .integer is
    · exact .double is

theorem toFlagValue_ofNumber (n : Json.Number) :
    (ofNumber n).toFlagValue = FlagValue.ofNumber n := by
  unfold ofNumber FlagValue.ofNumber
  cases n.toInt64? <;> rfl

theorem toFlagValue_injective : Function.Injective toFlagValue := by
  intro v w h
  cases v <;> cases w <;> cases h <;> rfl

theorem ofJson?_eq_some : ofJson? tree = some value ↔ tree.StandsForScalar value := by
  rw [standsForScalar_iff, ← FlagValue.ofJson?_eq_some]
  cases tree with
  | number n =>
    show some (ofNumber n) = some value ↔ some (FlagValue.ofNumber n) = some value.toFlagValue
    rw [Option.some.injEq, Option.some.injEq, ← toFlagValue_ofNumber, toFlagValue_injective.eq_iff]
  | _ => cases value <;> simp [ofJson?, FlagValue.ofJson?, toFlagValue]

theorem eq_of_standsForScalar {other : MetadataValue} (h : tree.StandsForScalar value)
    (h' : tree.StandsForScalar other) : value = other :=
  Option.some.inj ((ofJson?_eq_some.2 h).symm.trans (ofJson?_eq_some.2 h'))

end MetadataValue

end FeatureFlags
