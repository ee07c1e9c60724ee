import FeatureFlags.Json.Reader
import FeatureFlags.Proofs.Json.Equivalent
import FeatureFlags.Proofs.Outcomes

/-!
# What is read of a draft

In the draft of a text, a number or a text that can be read can also be skipped (`Legible`), so a
value that has been read has no fault that a reader who skips it would meet (`skip_of_json`). A tree
that has been read has its members in order (`sorted_of_json`), and finds under a name what the
draft has there last (`get?_of_jsonMembers`).
-/

namespace FeatureFlags.Json

open Outcome

/-! ## Legible drafts -/

/-- A literal that can be skipped if it can be read. -/
def Literal.Legible {α : Type} (literal : Literal α) : Prop :=
  ∀ value, literal.value = .ok value → literal.skipped = none

namespace Literal

variable {α : Type}

theorem legible_of_skipped {value : Except Fault α} : Legible ⟨value, none⟩ := fun _ _ => rfl

theorem legible_of_error {fault : Fault} {skipped : Option Fault} :
    Legible ⟨.error (α := α) fault, skipped⟩ := fun _ h => by cases h

theorem Legible.outcome {literal : Literal α} (h : literal.Legible) {value : α}
    (hvalue : literal.value = .ok value) : Fault.outcome literal.skipped = .ok () := by
  rw [h value hvalue]
  rfl

end Literal

namespace Draft

mutual

/-- All literals of a draft are legible. -/
def Legible : Draft → Prop
  | .number literal => literal.Legible
  | .string literal => literal.Legible
  | .array items _ => LegibleItems items
  | .object members _ => LegibleMembers members
  | _ => True
termination_by structural x => x

/-- All literals of some items are legible. -/
def LegibleItems : List Draft → Prop
  | [] => True
  | x :: xs => Legible x ∧ LegibleItems xs
termination_by structural xs => xs

/-- All literals of some members and of their names are legible. -/
def LegibleMembers : List (Draft × Draft) → Prop
  | [] => True
  | (k, x) :: xs => Legible k ∧ Legible x ∧ LegibleMembers xs
termination_by structural xs => xs

end

theorem name_eq_ok {k : Draft} {name : String} :
    k.name = .ok name ↔ ∃ literal, k = .string literal ∧ literal.value = .ok name := by
  cases k <;> simp [Draft.name]

theorem skipName_of_name {k : Draft} {name : String} (h : k.Legible) (hname : k.name = .ok name) :
    k.skipName = .ok () := by
  obtain ⟨literal, rfl, hvalue⟩ := name_eq_ok.1 hname
  exact h.outcome hvalue

theorem outcome_eq_ok {fault : Option Fault} : Fault.outcome fault = .ok () ↔ fault = none := by
  cases fault <;> simp [Fault.outcome]

theorem json_array_eq_ok {origin : Origin} {items : List Draft} {close : Option Fault} {y : Json} :
    (array items close).json origin = .ok y ↔ close = none ∧ ∃ inside ys,
      origin.enter = .ok inside ∧ jsonItems inside items = .ok ys ∧ .array ys = y := by
  cases close <;> simp [json, bind_eq_ok, Fault.outcome, pure, Except.pure]

theorem json_object_eq_ok {origin : Origin} {members : List (Draft × Draft)}
    {close : Option Fault} {y : Json} :
    (object members close).json origin = .ok y ↔ close = none ∧ ∃ inside ys,
      origin.enter = .ok inside ∧ jsonMembers inside members = .ok ys ∧
      .object (Entries.sort ys) = y := by
  cases close <;> simp [json, bind_eq_ok, Fault.outcome, pure, Except.pure]

theorem jsonItems_cons_eq_ok {origin : Origin} {x : Draft} {xs : List Draft} {ys : List Json} :
    jsonItems origin (x :: xs) = .ok ys ↔ ∃ y ys', x.json origin = .ok y ∧
      jsonItems origin xs = .ok ys' ∧ y :: ys' = ys := by
  simp [jsonItems, bind_eq_ok, pure, Except.pure]

theorem jsonMembers_cons_eq_ok {origin : Origin} {k x : Draft} {xs : List (Draft × Draft)}
    {ys : List (String × Json)} :
    jsonMembers origin ((k, x) :: xs) = .ok ys ↔ ∃ name y ys', k.name = .ok name ∧
      x.json origin = .ok y ∧ jsonMembers origin xs = .ok ys' ∧ (name, y) :: ys' = ys := by
  simp [jsonMembers, bind_eq_ok, pure, Except.pure]

mutual

/-- A value that can be read can be skipped. -/
theorem skip_of_json : ∀ (x : Draft) {origin : Origin} {y : Json}, x.Legible →
    x.json origin = .ok y → x.skip = .ok ()
  | .missing, _, _, _, h => by cases h
  | .junk, _, _, _, h => by cases h
  | .misspelt _ _, _, _, _, h => by cases h
  | .null, _, _, _, _ => rfl
  | .bool _, _, _, _, _ => rfl
  | .number literal, _, _, hl, h => by
    obtain ⟨n, hn, -⟩ := map_eq_ok.1 h
    exact Literal.Legible.outcome hl hn
  | .string literal, _, _, hl, h => by
    obtain ⟨s, hs, -⟩ := map_eq_ok.1 h
    exact Literal.Legible.outcome hl hs
  | .array items close, _, _, hl, h => by
    obtain ⟨rfl, inside, ys, -, hitems, -⟩ := json_array_eq_ok.1 h
    simp only [skip, skipItems_of_json items hl hitems]
    rfl
  | .object members close, _, _, hl, h => by
    obtain ⟨rfl, inside, ys, -, hmembers, -⟩ := json_object_eq_ok.1 h
    simp only [skip, skipMembers_of_json members hl hmembers]
    rfl
termination_by structural x => x

theorem skipItems_of_json : ∀ (xs : List Draft) {origin : Origin} {ys : List Json},
    LegibleItems xs → jsonItems origin xs = .ok ys → skipItems xs = .ok ()
  | [], _, _, _, _ => rfl
  | x :: xs, _, _, hl, h => by
    obtain ⟨y, ys, hx, hxs, -⟩ := jsonItems_cons_eq_ok.1 h
    simp only [skipItems, skip_of_json x hl.1 hx, skipItems_of_json xs hl.2 hxs]
    rfl
termination_by structural xs => xs

theorem skipMembers_of_json : ∀ (xs : List (Draft × Draft)) {origin : Origin}
    {ys : List (String × Json)}, LegibleMembers xs → jsonMembers origin xs = .ok ys →
    skipMembers xs = .ok ()
  | [], _, _, _, _ => rfl
  | (k, x) :: xs, _, _, hl, h => by
    obtain ⟨name, y, ys, hk, hx, hxs, -⟩ := jsonMembers_cons_eq_ok.1 h
    simp only [skipMembers, skipName_of_name hl.1 hk, skip_of_json x hl.2.1 hx,
      skipMembers_of_json xs hl.2.2 hxs]
    rfl
termination_by structural xs => xs

end

end Draft

/-! ## Drafts of texts -/

/-- The pieces of a text in quotes that does not end make no text. -/
theorem Piece.join_some_ne_ok {fault : Fault} : ∀ (pieces : List Piece) (cs : List Char),
    Piece.join (some fault) pieces ≠ .ok cs
  | [], _ => by simp [join]
  | .char c :: rest, cs => by
    intro h
    obtain ⟨ds, hds, -⟩ := map_eq_ok.1 h
    exact join_some_ne_ok rest ds hds
  | .unit n :: rest, cs => by
    intro h
    unfold join at h
    split at h
    · cases h
    split at h
    · split at h
      · cases h
      · cases h
      · rename_i m rest
        split at h
        · obtain ⟨ds, hds, -⟩ := map_eq_ok.1 h
          exact join_some_ne_ok rest ds hds
        · cases h
    · obtain ⟨ds, hds, -⟩ := map_eq_ok.1 h
      exact join_some_ne_ok rest ds hds

theorem legible_scanString (cs : List Char) : (scanString cs).1.Legible := by
  unfold scanString
  split
  · exact Literal.legible_of_skipped
  · intro value h
    obtain ⟨ds, hds, -⟩ := map_eq_ok.1 h
    exact absurd hds (Piece.join_some_ne_ok _ ds)

theorem legible_lacksDigit (cs : List Char) : (lacksDigit cs).Legible := by
  cases cs <;> exact Literal.legible_of_error

theorem legible_scanExponent (negative : Bool) (whole : List Char) (fraction : Option (List Char))
    (cs : List Char) : (scanExponent negative whole fraction cs).1.Legible := by
  unfold scanExponent
  cases cs with
  | nil =>
    dsimp only
    split <;> exact Literal.legible_of_skipped
  | cons c rest =>
    dsimp only
    split
    · split
      · exact legible_lacksDigit _
      · dsimp only
        split <;> exact Literal.legible_of_skipped
    · dsimp only
      split <;> exact Literal.legible_of_skipped

theorem legible_scanNumeral (negative : Bool) (cs : List Char) :
    (scanNumeral negative cs).1.Legible := by
  unfold scanNumeral
  split
  · exact legible_lacksDigit _
  · split
    · exact Literal.legible_of_error
    · split
      · split
        · exact legible_lacksDigit _
        · exact legible_scanExponent _ _ _ _
      · exact legible_scanExponent _ _ _ _

theorem legible_scanWord (word : String) {value : Draft} (h : value.Legible) (null : Bool)
    (cs : List Char) : (scanWord word value null cs).1.Legible := by
  unfold scanWord
  split
  · exact h
  · trivial

theorem legible_scanScalar (c : Char) (rest : List Char) : (scanScalar c rest).1.Legible := by
  unfold scanScalar
  split
  · exact legible_scanString rest
  split
  · exact legible_scanNumeral true rest
  split
  · exact legible_scanNumeral false (c :: rest)
  have null : Draft.Legible .null := trivial
  have bool (b : Bool) : Draft.Legible (.bool b) := trivial
  split
  · exact legible_scanWord _ null _ _
  split
  · exact legible_scanWord _ (bool true) _ _
  split
  · exact legible_scanWord _ (bool false) _ _
  · trivial

/-- What is scanned is legible. -/
theorem legible_scan (fuel : Nat) : (∀ cs, (scanValue fuel cs).1.Legible) ∧
    (∀ cs, Draft.LegibleItems (scanItems fuel cs).1) ∧
    ∀ cs, Draft.LegibleMembers (scanMembers fuel cs).1 := by
  induction fuel with
  | zero => exact ⟨fun _ => trivial, fun _ => trivial, fun _ => trivial⟩
  | succ fuel ih =>
    obtain ⟨value, items, members⟩ := ih
    refine ⟨fun cs => ?_, fun cs => ?_, fun cs => ?_⟩
    · unfold scanValue
      split
      · trivial
      split
      · split
        · trivial
        · split
          · trivial
          · exact items _
      split
      · split
        · trivial
        · split
          · trivial
          · exact members _
      · exact legible_scanScalar _ _
    · unfold scanItems
      dsimp only
      split
      · exact ⟨value _, trivial⟩
      split
      · exact ⟨value _, trivial⟩
      split
      · exact ⟨value _, items _⟩
      · exact ⟨value _, trivial⟩
    · unfold scanMembers
      split
      · exact ⟨trivial, trivial, trivial⟩
      split
      · dsimp only
        split
        · exact ⟨legible_scanString _, trivial, trivial⟩
        split
        · split
          · exact ⟨legible_scanString _, value _, trivial⟩
          split
          · exact ⟨legible_scanString _, value _, trivial⟩
          split
          · exact ⟨legible_scanString _, value _, members _⟩
          · exact ⟨legible_scanString _, value _, trivial⟩
        · exact ⟨legible_scanString _, trivial, trivial⟩
      · exact ⟨value _, trivial, trivial⟩

/-- The draft of any text is legible. -/
theorem legible_ofText (text : String) : (Document.ofText text).root.Legible :=
  (legible_scan (2 * text.toList.length + 1)).1 text.toList

/-! ## Trees of drafts -/

namespace Draft

mutual

/-- A tree that has been read has its members in order. -/
theorem sorted_of_json : ∀ (x : Draft) {origin : Origin} {y : Json}, x.json origin = .ok y →
    y.sorted = y
  | .missing, _, _, h => by cases h
  | .junk, _, _, h => by cases h
  | .misspelt _ _, _, _, h => by cases h
  | .null, _, _, h => by cases h; rfl
  | .bool _, _, _, h => by cases h; rfl
  | .number literal, _, _, h => by
    obtain ⟨n, -, rfl⟩ := map_eq_ok.1 h
    rfl
  | .string literal, _, _, h => by
    obtain ⟨s, -, rfl⟩ := map_eq_ok.1 h
    rfl
  | .array items close, _, _, h => by
    obtain ⟨-, inside, ys, -, hitems, rfl⟩ := json_array_eq_ok.1 h
    rw [Json.sorted, sortedItems_of_json items hitems]
  | .object members close, _, _, h => by
    obtain ⟨-, inside, ys, -, hmembers, rfl⟩ := json_object_eq_ok.1 h
    have below := sortedMembers_of_json members hmembers
    rw [sortedMembers_eq_mapValues] at below
    rw [Json.sorted, sortedMembers_eq_mapValues, Entries.mapValues_sort, below,
      Entries.sort_eq_self (Entries.sorted_sort ys)]
termination_by structural x => x

theorem sortedItems_of_json : ∀ (xs : List Draft) {origin : Origin} {ys : List Json},
    jsonItems origin xs = .ok ys → sortedItems ys = ys
  | [], _, _, h => by cases h; rfl
  | x :: xs, _, _, h => by
    obtain ⟨y, ys, hx, hxs, rfl⟩ := jsonItems_cons_eq_ok.1 h
    rw [sortedItems, sorted_of_json x hx, sortedItems_of_json xs hxs]
termination_by structural xs => xs

theorem sortedMembers_of_json : ∀ (xs : List (Draft × Draft)) {origin : Origin}
    {ys : List (String × Json)}, jsonMembers origin xs = .ok ys → sortedMembers ys = ys
  | [], _, _, h => by cases h; rfl
  | (k, x) :: xs, _, _, h => by
    obtain ⟨name, y, ys, -, hx, hxs, rfl⟩ := jsonMembers_cons_eq_ok.1 h
    rw [sortedMembers, sorted_of_json x hx, sortedMembers_of_json xs hxs]
termination_by structural xs => xs

end

variable {origin : Origin} {x : Draft}

theorem json_eq_null : x.json origin = .ok .null ↔ x = .null := by
  cases x with
  | array items close => simp [json_array_eq_ok]
  | object members close => simp [json_object_eq_ok]
  | _ => simp [json, map_eq_ok]

theorem json_eq_string {s : String} :
    x.json origin = .ok (.string s) ↔ ∃ literal, x = .string literal ∧ literal.value = .ok s := by
  cases x with
  | array items close => simp [json_array_eq_ok]
  | object members close => simp [json_object_eq_ok]
  | _ => simp [json, map_eq_ok]

theorem json_eq_array {ys : List Json} :
    x.json origin = .ok (.array ys) ↔ ∃ items inside, x = .array items none ∧
      origin.enter = .ok inside ∧ jsonItems inside items = .ok ys := by
  cases x with
  | array items close => simp [json_array_eq_ok]
  | object members close => simp [json_object_eq_ok]
  | _ => simp [json, map_eq_ok]

theorem json_eq_object {ms : Entries Json} :
    x.json origin = .ok (.object ms) ↔ ∃ members inside ys, x = .object members none ∧
      origin.enter = .ok inside ∧ jsonMembers inside members = .ok ys ∧ Entries.sort ys = ms := by
  cases x with
  | array items close => simp [json_array_eq_ok]
  | object members close => simp [json_object_eq_ok]
  | _ => simp [json, map_eq_ok]

/-- The values of the members with a name, in their order. -/
def under (name : String) (members : List (Draft × Draft)) : List Draft :=
  members.filterMap fun e => if e.1.name.toOption = some name then some e.2 else none

theorem under_cons {k : Draft} {found : String} (h : k.name = .ok found) (name : String)
    (x : Draft) (rest : List (Draft × Draft)) : under name ((k, x) :: rest) =
      if found = name then x :: under name rest else under name rest := by
  unfold under
  by_cases hname : found = name <;> simp [h, hname, Except.toOption]

/-- How often an object has a member with a name. -/
def occurrences (name : String) : Draft → Nat
  | .object members _ => (under name members).length
  | _ => 0

/-- What stands under a name is read to what stands there in the tree. -/
theorem forall₂_under (name : String) {members : List (Draft × Draft)}
    {ys : Entries Json} (h : jsonMembers origin members = .ok ys) :
    List.Forall₂ (fun x y => x.json origin = .ok y) (under name members) (ys.under name) := by
  induction members generalizing ys with
  | nil =>
    cases h
    exact .nil
  | cons e rest ih =>
    obtain ⟨k, x⟩ := e
    obtain ⟨found, y, ys, hk, hx, hrest, rfl⟩ := jsonMembers_cons_eq_ok.1 h
    rw [under_cons hk, Entries.under_cons]
    split
    · exact .cons hx (ih hrest)
    · exact ih hrest

/-- A member that occurs at most once is found in the tree as it is read. -/
theorem get?_of_jsonMembers {name : String} {members : List (Draft × Draft)}
    {ys : Entries Json} (once : (under name members).length ≤ 1)
    (h : jsonMembers origin members = .ok ys) :
    Option.Rel (fun x y => x.json origin = .ok y) (under name members).head?
      (ys.sort.get? name) := by
  have related := forall₂_under name h
  rw [Entries.get?_sort]
  revert once related
  generalize under name members = xs
  generalize ys.under name = values
  intro once related
  cases related with
  | nil => exact .none
  | cons hx hxs =>
    cases hxs with
    | nil => exact .some hx
    | cons _ _ => simp at once

end Draft

end FeatureFlags.Json
