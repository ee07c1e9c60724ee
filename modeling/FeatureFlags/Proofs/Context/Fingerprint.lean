import FeatureFlags.Context
import FeatureFlags.Proofs.Json.Equivalent
import FeatureFlags.Proofs.Json.Rendering
import FeatureFlags.Proofs.Text.Utf8
import Mathlib.Data.List.Induction

/-!
# What a fingerprint stands for

The bytes that are hashed for a context determine its targeting key, or that there is none, and its
attributes, up to the order of members (`digested_eq_iff`): the canonical text is the text of a
tree, in which each attribute stands in its sorted form.

How a context was built leaves no trace but the last targeting key and the last value of each
attribute (`build_get`). So the fingerprint is that of the context as a map, and contexts have the
same bytes only if they agree (`fingerprint_identifies`).
-/

namespace FeatureFlags

/-! ## Bytes -/

namespace EvaluationContext

/-- The bytes that are hashed for a context. -/
def digested (context : EvaluationContext) : List UInt8 :=
  Utf8.encode (String.ofList context.canonical)

/-- A targeting key in a document. -/
def keyTree : Option String → Json
  | some key => .string key
  | none => .null

theorem keyTree_injective : ∀ {x y : Option String}, keyTree x = keyTree y → x = y
  | none, none, _ => rfl
  | none, some _, h => by cases h
  | some _, none, h => by cases h
  | some x, some y, h => congrArg some (Json.string.inj h)

/-- The tree of which the canonical text is. -/
def canonicalTree (context : EvaluationContext) : Json :=
  .object [("attributes", .object (context.attributes.mapValues Json.sorted).entries),
    ("targetingKey", keyTree context.targetingKey)]

theorem canonical_eq (context : EvaluationContext) :
    context.canonical = Json.render context.canonicalTree := by
  unfold canonical canonicalTree keyTree
  cases context.targetingKey <;> rfl

variable {a b : EvaluationContext}

theorem canonicalTree_eq_iff :
    a.canonicalTree = b.canonicalTree ↔
      a.targetingKey = b.targetingKey ∧
        a.attributes.mapValues Json.sorted = b.attributes.mapValues Json.sorted := by
  refine ⟨fun same => ?_, fun ⟨hkey, hattributes⟩ => by rw [canonicalTree, hkey, hattributes]; rfl⟩
  simp only [canonicalTree, Json.object.injEq, List.cons.injEq, Prod.mk.injEq, true_and,
    and_true] at same
  exact ⟨keyTree_injective same.2, Dict.ext_get? fun name => congrArg (Entries.get? · name) same.1⟩

/-- The bytes that are hashed determine the targeting key and the attributes. -/
theorem digested_eq_iff :
    a.digested = b.digested ↔
      a.targetingKey = b.targetingKey ∧
        ∀ name, Option.Rel Json.Equivalent (a.attribute? name) (b.attribute? name) := by
  calc a.digested = b.digested
    _ ↔ a.canonicalTree = b.canonicalTree := by
      rw [digested, digested, utf8_encode_inj, String.ofList_inj, canonical_eq, canonical_eq]
      exact ⟨Json.eq_of_render_eq, fun same => congrArg Json.render same⟩
    _ ↔ _ := canonicalTree_eq_iff
    _ ↔ _ := by
      have found (name : String) :
          (a.attributes.mapValues Json.sorted).get? name =
              (b.attributes.mapValues Json.sorted).get? name ↔
            Option.Rel Json.Equivalent (a.attribute? name) (b.attribute? name) := by
        rw [Dict.get?_mapValues, Dict.get?_mapValues]
        exact Json.map_sorted_eq_iff fun v _ w => Json.sorted_eq_iff v w
      refine and_congr_right fun _ => ⟨fun same name => ?_, fun same => ?_⟩
      · exact (found name).1 (congrArg (Dict.get? · name) same)
      · exact Dict.ext_get? fun name => (found name).2 (same name)

/-! ## Building -/

/-- One step of building a context. -/
inductive Write where
  | setKey (key : String)
  | setAttribute (name : String) (value : Json)

/-- The context after one more step. -/
def write (context : EvaluationContext) : Write → EvaluationContext
  | .setKey key => context.withTargetingKey key
  | .setAttribute name value => context.withAttribute name value

/-- The context that is built from nothing in some steps. -/
def build (writes : List Write) : EvaluationContext := writes.foldl write {}

/-- The targeting key that was written last. -/
def lastKey (writes : List Write) : Option String :=
  writes.reverse.findSome? fun
    | .setKey key => some key
    | .setAttribute _ _ => none

/-- The value that was written last under a name. -/
def lastValue (writes : List Write) (name : String) : Option Json :=
  writes.reverse.findSome? fun
    | .setKey _ => none
    | .setAttribute other value => if name = other then some value else none

/-- What was written last is what a context has. -/
theorem build_get (writes : List Write) :
    (build writes).targetingKey = lastKey writes ∧
      ∀ name, (build writes).attribute? name = lastValue writes name := by
  induction writes using List.reverseRecOn with
  | nil => exact ⟨rfl, fun _ => rfl⟩
  | append_singleton writes last ih =>
    obtain ⟨hkey, hvalue⟩ := ih
    rw [build, List.foldl_append]
    change (write (build writes) last).targetingKey = _ ∧
      ∀ name, (write (build writes) last).attribute? name = _
    cases last with
    | setKey key =>
      refine ⟨?_, fun name => ?_⟩
      · simp [lastKey, write, withTargetingKey]
      · rw [lastValue, List.reverse_append]
        exact hvalue name
    | setAttribute other value =>
      refine ⟨?_, fun name => ?_⟩
      · rw [lastKey, List.reverse_append]
        exact hkey
      · change (withAttribute (build writes) other value).attribute? name = _
        rw [lastValue, List.reverse_append]
        simp only [withAttribute, attribute?, Dict.get?_insert, List.reverse_singleton,
          List.singleton_append, List.findSome?_cons]
        split
        · rfl
        · exact hvalue name

/-- The bytes that are hashed for contexts are equal exactly if the contexts have the same targeting
key, or both none, and the same attributes with equivalent values. In particular the fingerprint of
a context depends on the last targeting key and the last value of each attribute that were
written. -/
theorem fingerprint_identifies :
    (∀ a b : EvaluationContext,
      a.fingerprint = Sha256.hex a.digested ∧
        (a.digested = b.digested ↔
          a.targetingKey = b.targetingKey ∧
            ∀ name, Option.Rel Json.Equivalent (a.attribute? name) (b.attribute? name))) ∧
      ∀ xs ys : List Write, lastKey xs = lastKey ys →
        (∀ name, lastValue xs name = lastValue ys name) →
          (build xs).fingerprint = (build ys).fingerprint := by
  refine ⟨fun a b => ⟨rfl, digested_eq_iff⟩, fun xs ys hkey hvalue => ?_⟩
  obtain ⟨xs_key, xs_value⟩ := build_get xs
  obtain ⟨ys_key, ys_value⟩ := build_get ys
  have same : (build xs).digested = (build ys).digested := by
    refine digested_eq_iff.2 ⟨xs_key.trans (hkey.trans ys_key.symm), fun name => ?_⟩
    rw [xs_value, ys_value, hvalue]
    cases lastValue ys name with
    | none => exact .none
    | some value => exact .some (Json.Equivalent.refl value)
  exact congrArg Sha256.hex same

/-- Writes in another order, some of which others undo. -/
theorem fingerprint_identifies_rewritten :
    let xs : List Write := [.setKey "u-1", .setAttribute "plan" "free", .setAttribute "beta" .null,
      .setKey "u-2", .setAttribute "plan" "pro"]
    let ys : List Write := [.setAttribute "plan" "pro", .setAttribute "beta" "on",
      .setAttribute "beta" .null, .setKey "u-2"]
    lastKey xs = lastKey ys ∧ (∀ name, lastValue xs name = lastValue ys name) ∧
      (build xs).fingerprint = (build ys).fingerprint := by
  intro xs ys
  have key_eq : lastKey xs = lastKey ys := rfl
  have value_eq : ∀ name, lastValue xs name = lastValue ys name := by
    intro name
    by_cases plan : name = "plan" <;> by_cases beta : name = "beta" <;>
      simp_all [lastValue, xs, ys]
  exact ⟨key_eq, value_eq, fingerprint_identifies.2 xs ys key_eq value_eq⟩

end EvaluationContext

end FeatureFlags
