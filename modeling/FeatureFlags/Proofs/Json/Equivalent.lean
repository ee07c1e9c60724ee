import FeatureFlags.Json.Basic
import FeatureFlags.Proofs.Dict
import Mathlib.Data.List.Forall2
import Mathlib.Data.Option.Basic

/-!
# Trees whose objects are maps

Trees are equivalent if they differ in the order of members only, at any depth: the members of an
object are a map, in which of two members with one name the last one counts. Integers and doubles
are different numbers, and so are both zeros.

Sorting the members brings equivalent trees into one form (`sorted_eq_iff`).
-/

namespace FeatureFlags

namespace Json

/-- Equality of trees in which the members of an object are a map. -/
inductive Equivalent : Json → Json → Prop
  | null : Equivalent .null .null
  | bool (b : Bool) : Equivalent (.bool b) (.bool b)
  | number (n : Number) : Equivalent (.number n) (.number n)
  | string (s : String) : Equivalent (.string s) (.string s)
  | array {xs ys : List Json} (items : List.Forall₂ Equivalent xs ys) :
    Equivalent (.array xs) (.array ys)
  | object {xs ys : List (String × Json)}
    (members : ∀ name, Option.Rel Equivalent ((Dict.ofEntries xs).get? name)
      ((Dict.ofEntries ys).get? name)) :
    Equivalent (.object xs) (.object ys)

theorem sortedMembers_eq_mapValues (xs : List (String × Json)) :
    sortedMembers xs = Entries.mapValues sorted xs := by
  induction xs with
  | nil => rfl
  | cons e xs ih =>
    rw [sortedMembers, ih]
    rfl

/-- Sorted members are equal if what is found under each name has one form. -/
theorem sort_sortedMembers_eq_iff (xs ys : List (String × Json)) :
    Entries.sort (sortedMembers xs) = Entries.sort (sortedMembers ys) ↔
      ∀ name, ((Dict.ofEntries xs).get? name).map sorted =
        ((Dict.ofEntries ys).get? name).map sorted := by
  have found : ∀ (xs : List (String × Json)) (name : String),
      (Entries.sort (sortedMembers xs)).get? name =
        ((Dict.ofEntries xs).get? name).map sorted := by
    intro xs name
    rw [sortedMembers_eq_mapValues, ← Entries.mapValues_sort, Entries.get?_mapValues]
    rfl
  constructor
  · intro same name
    rw [← found, ← found, same]
  · intro same
    refine Entries.ext_get? (Entries.sorted_sort _) (Entries.sorted_sort _) fun name => ?_
    rw [found, found, same]

/-- Values found under one name have one form if they are equivalent. -/
theorem map_sorted_eq_iff {x y : Option Json}
    (h : ∀ v, x = some v → ∀ w, sorted v = sorted w ↔ Equivalent v w) :
    x.map sorted = y.map sorted ↔ Option.Rel Equivalent x y := by
  cases x with
  | none => cases y <;> simp
  | some v => cases y <;> simp [h v rfl]

mutual

/-- Sorting the members brings two trees into one form exactly if they are equivalent. -/
theorem sorted_eq_iff : ∀ x y : Json, sorted x = sorted y ↔ Equivalent x y
  | .null, y => by
    refine ⟨fun same => ?_, fun h => by cases h; rfl⟩
    cases y <;> cases same
    exact .null
  | .bool b, y => by
    refine ⟨fun same => ?_, fun h => by cases h; rfl⟩
    cases y <;> cases same
    exact .bool b
  | .number n, y => by
    refine ⟨fun same => ?_, fun h => by cases h; rfl⟩
    cases y <;> cases same
    exact .number n
  | .string s, y => by
    refine ⟨fun same => ?_, fun h => by cases h; rfl⟩
    cases y <;> cases same
    exact .string s
  | .array xs, y => by
    have items := sortedItems_eq_iff xs
    constructor
    · intro same
      cases y <;> simp only [sorted, reduceCtorEq, array.injEq] at same
      exact .array ((items _).1 same)
    · intro h
      cases h with
      | array related => exact congrArg array ((items _).2 related)
  | .object xs, y => by
    have found (ys : List (String × Json)) (name : String) :
        ((Dict.ofEntries xs).get? name).map sorted = ((Dict.ofEntries ys).get? name).map sorted ↔
          Option.Rel Equivalent ((Dict.ofEntries xs).get? name) ((Dict.ofEntries ys).get? name) :=
      map_sorted_eq_iff fun v hv =>
        sorted_eq_iff_of_mem xs (name, v) (Entries.mem_of_mem_sort (Entries.mem_of_get? hv))
    constructor
    · intro same
      cases y <;> simp only [sorted, reduceCtorEq, object.injEq] at same
      exact .object fun name => (found _ name).1 ((sort_sortedMembers_eq_iff _ _).1 same name)
    · intro h
      cases h with
      | object related =>
        exact congrArg object
          ((sort_sortedMembers_eq_iff _ _).2 fun name => (found _ name).2 (related name))
termination_by structural x => x

theorem sortedItems_eq_iff : ∀ xs ys : List Json,
    sortedItems xs = sortedItems ys ↔ List.Forall₂ Equivalent xs ys
  | [], ys => by cases ys <;> simp [sortedItems]
  | x :: xs, [] => by simp [sortedItems]
  | x :: xs, y :: ys => by
    rw [sortedItems, sortedItems, List.cons.injEq, List.forall₂_cons, sorted_eq_iff x y,
      sortedItems_eq_iff xs ys]
termination_by structural xs => xs

theorem sorted_eq_iff_of_mem : ∀ (xs : List (String × Json)) (e : String × Json), e ∈ xs →
    ∀ y, sorted e.2 = sorted y ↔ Equivalent e.2 y
  | [], _, he => by cases he
  | (k, x) :: xs, e, he => by
    obtain rfl | he := List.mem_cons.1 he
    · exact sorted_eq_iff x
    · exact sorted_eq_iff_of_mem xs e he
termination_by structural xs => xs

end

theorem Equivalent.refl (x : Json) : Equivalent x x := (sorted_eq_iff x x).1 rfl

end Json

end FeatureFlags
