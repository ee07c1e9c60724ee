import FeatureFlags.Json.Named
import FeatureFlags.Proofs.Dict
import FeatureFlags.Proofs.Json.Unsigned

/-!
# Reading trees up to the signs of zeros

A reader that takes no double out of a tree does not see the sign of a zero, except in its
complaints. `Blind` says so of a reader: from the tree without the signs it reads what it reads from
the tree, without the signs, or it fails on both. The combinators keep this, so a record is read
blindly if each of its fields is (`Record.blind`).
-/

namespace FeatureFlags

/-- Both outcomes are results, which are related, or both are errors. -/
inductive Alike {ε ε' α β : Type} (R : α → β → Prop) : Except ε α → Except ε' β → Prop
  | ok {a : α} {b : β} (related : R a b) : Alike R (.ok a) (.ok b)
  | error {e : ε} {e' : ε'} : Alike R (.error e) (.error e')

namespace Alike

variable {ε ε' α α' β β' : Type} {R : α → α' → Prop} {S : β → β' → Prop}
  {x : Except ε α} {y : Except ε' α'}

theorem refl {R : α → α → Prop} (h : ∀ a, R a a) (x : Except ε α) : Alike R x x := by
  cases x with
  | ok a => exact .ok (h a)
  | error e => exact .error

theorem bind (h : Alike R x y) {f : α → Except ε β} {g : α' → Except ε' β'}
    (hf : ∀ a a', R a a' → Alike S (f a) (g a')) : Alike S (x >>= f) (y >>= g) := by
  cases h with
  | ok related => exact hf _ _ related
  | error => exact .error

theorem map (h : Alike R x y) {f : α → β} {g : α' → β'} (hf : ∀ a a', R a a' → S (f a) (g a')) :
    Alike S (x.map f) (y.map g) := by
  cases h with
  | ok related => exact .ok (hf _ _ related)
  | error => exact .error

end Alike

namespace Json

/-! ## Trees as drafts -/

mutual

/-- How deep arrays and objects are nested in a tree. -/
def nesting : Json → Nat
  | .array xs => nestingItems xs + 1
  | .object ms => nestingMembers ms + 1
  | _ => 0
termination_by structural x => x

/-- How deep arrays and objects are nested in items. -/
def nestingItems : List Json → Nat
  | [] => 0
  | x :: xs => max (nesting x) (nestingItems xs)
termination_by structural xs => xs

/-- How deep arrays and objects are nested in members. -/
def nestingMembers : List (String × Json) → Nat
  | [] => 0
  | (_, x) :: ms => max (nesting x) (nestingMembers ms)
termination_by structural ms => ms

end

namespace Origin

/-- Arrays and objects may be nested as deep as that. -/
def Admits : Origin → Nat → Prop
  | text room, depth => depth ≤ room
  | tree, _ => True

variable {origin : Origin} {depth : Nat}

theorem Admits.mono (h : origin.Admits depth) {less : Nat} (le : less ≤ depth) :
    origin.Admits less := by
  cases origin with
  | text room => exact Nat.le_trans le h
  | tree => trivial

theorem Admits.enter (h : origin.Admits (depth + 1)) :
    ∃ inside, origin.enter = .ok inside ∧ inside.Admits depth := by
  cases origin with
  | text room =>
    cases room with
    | zero => cases h
    | succ room => exact ⟨.text room, rfl, Nat.le_of_succ_le_succ h⟩
  | tree => exact ⟨.tree, rfl, trivial⟩

end Origin

namespace Draft

mutual

/-- Where a tree is not nested too deep, it is taken with its members in order. -/
theorem json_ofJson_of_admits : ∀ (x : Json) {origin : Origin}, origin.Admits x.nesting →
    (ofJson x).json origin = .ok (Json.sorted x)
  | .null, _, _ => rfl
  | .bool b, _, _ => rfl
  | .number n, _, _ => rfl
  | .string s, _, _ => rfl
  | .array xs, origin, h => by
    obtain ⟨inside, henter, hinside⟩ := Origin.Admits.enter h
    have hitems := jsonItems_ofItems xs hinside
    simp only [ofJson, json, henter, bind, Except.bind, hitems, Json.sorted]
    rfl
  | .object xs, origin, h => by
    obtain ⟨inside, henter, hinside⟩ := Origin.Admits.enter h
    have hmembers := jsonMembers_ofMembers xs hinside
    simp only [ofJson, json, henter, bind, Except.bind, hmembers, Json.sorted]
    rfl

theorem jsonItems_ofItems : ∀ (xs : List Json) {origin : Origin},
    origin.Admits (nestingItems xs) →
    jsonItems origin (ofItems xs) = .ok (Json.sortedItems xs)
  | [], _, _ => rfl
  | x :: xs, _, h => by
    simp only [ofItems, jsonItems, json_ofJson_of_admits x (h.mono (Nat.le_max_left _ _)),
      jsonItems_ofItems xs (h.mono (Nat.le_max_right _ _)), Json.sortedItems]
    rfl

theorem jsonMembers_ofMembers : ∀ (xs : List (String × Json)) {origin : Origin},
    origin.Admits (nestingMembers xs) →
    jsonMembers origin (ofMembers xs) = .ok (Json.sortedMembers xs)
  | [], _, _ => rfl
  | (k, x) :: xs, _, h => by
    simp only [ofMembers, jsonMembers, json_ofJson_of_admits x (h.mono (Nat.le_max_left _ _)),
      jsonMembers_ofMembers xs (h.mono (Nat.le_max_right _ _)), Json.sortedMembers]
    rfl

end

/-- A tree that is read as a tree has its members in order. -/
theorem json_ofJson (x : Json) : (ofJson x).json .tree = .ok (Json.sorted x) :=
  json_ofJson_of_admits x trivial

mutual

/-- Nothing in a tree is at fault. -/
theorem skip_ofJson : ∀ x : Json, (ofJson x).skip = .ok ()
  | .null => rfl
  | .bool b => rfl
  | .number n => rfl
  | .string s => rfl
  | .array xs => by
    simp only [ofJson, skip, skipItems_ofItems xs]
    rfl
  | .object xs => by
    simp only [ofJson, skip, skipMembers_ofMembers xs]
    rfl

theorem skipItems_ofItems : ∀ xs : List Json, skipItems (ofItems xs) = .ok ()
  | [] => rfl
  | x :: xs => by
    simp only [ofItems, skipItems, skip_ofJson x, skipItems_ofItems xs]
    rfl

theorem skipMembers_ofMembers : ∀ xs : List (String × Json), skipMembers (ofMembers xs) = .ok ()
  | [] => rfl
  | (k, x) :: xs => by
    simp only [ofMembers, skipMembers, skip_ofJson x, skipMembers_ofMembers xs]
    rfl

end

end Draft

mutual

theorem sorted_unsigned : ∀ x : Json, x.unsigned.sorted = x.sorted.unsigned
  | .null => rfl
  | .bool b => rfl
  | .number n => rfl
  | .string s => rfl
  | .array xs => by simp only [unsigned, sorted, sortedItems_unsigned xs]
  | .object xs => by
    have hmembers := sortedMembers_unsigned xs
    simp only [unsigned, sorted, hmembers]
    simp only [unsignedMembers_eq_mapValues, Entries.mapValues_sort]

theorem sortedItems_unsigned : ∀ xs : List Json,
    sortedItems (unsignedItems xs) = unsignedItems (sortedItems xs)
  | [] => rfl
  | x :: xs => by
    simp only [unsignedItems, sortedItems, sorted_unsigned x, sortedItems_unsigned xs]

theorem sortedMembers_unsigned : ∀ xs : List (String × Json),
    sortedMembers (unsignedMembers xs) = unsignedMembers (sortedMembers xs)
  | [] => rfl
  | (k, x) :: xs => by
    simp only [unsignedMembers, sortedMembers, sorted_unsigned x, sortedMembers_unsigned xs]

end

/-! ## Blind readers -/

namespace Reader

variable {α : Type}

/-- From the tree without signs, the reader reads what it reads from the tree, changed by `f`, or it
fails on both. -/
def Blind (reader : Reader α) (f : α → α) : Prop :=
  ∀ x : Json, Alike (fun a b => a = f b) (reader .tree (.ofJson x.unsigned))
    (reader .tree (.ofJson x))

theorem blind_json : Blind json unsigned := fun x => by
  simp only [json, Draft.json_ofJson, sorted_unsigned]
  exact .ok rfl

theorem blind_stringAs (expected : String) : Blind (stringAs expected) id := fun x => by
  cases x with
  | string s => exact .ok rfl
  | _ => exact .error

theorem blind_natural (bound : Nat) (expected : String) : Blind (natural bound expected) id :=
  fun x => by
    cases x with
    | number n =>
      cases n with
      | integer n h => exact .refl (fun _ => rfl) _
      | double d => exact .error
    | _ => exact .error

theorem blind_uint32 : Blind uint32 id := fun x =>
  (blind_natural _ _ x).map fun _ _ h => h ▸ rfl

theorem blind_unit : Blind unit id := fun x => by
  cases x with
  | null => exact .ok rfl
  | _ => exact .error

theorem Blind.optional {reader : Reader α} {f : α → α} (h : reader.Blind f) :
    (optional reader).Blind (Option.map f) := fun x => by
  cases x with
  | null => exact .ok rfl
  | _ => exact (h _).map fun _ _ hab => congrArg some hab

theorem Blind.list {reader : Reader α} {f : α → α} (h : reader.Blind f) :
    (list reader).Blind (List.map f) := fun x => by
  cases x with
  | array xs =>
    have hitems : Alike (fun a b => a = List.map f b)
        ((Draft.ofItems (unsignedItems xs)).mapM (reader .tree))
        ((Draft.ofItems xs).mapM (reader .tree)) := by
      induction xs with
      | nil => exact .ok rfl
      | cons x xs ih =>
        simp only [unsignedItems, Draft.ofItems, List.mapM_cons]
        refine (h x).bind fun a b hab => ih.bind fun as bs has => .ok ?_
        rw [hab, has, List.map_cons]
    exact hitems.bind fun a b hab => .ok hab
  | _ => exact .error

theorem blind_variant (variants : List (String × α)) : Blind (variant variants) id := fun x => by
  have hlookup : ∀ name, Alike (fun a b => a = id b) (lookup variants name)
      (lookup variants name) := fun name => .refl (fun _ => rfl) _
  cases x with
  | string s => exact hlookup s
  | object xs =>
    match xs with
    | [] => exact .error
    | [(k, v)] => exact (hlookup k).bind fun a b hab => (blind_unit v).bind fun _ _ _ => .ok hab
    | _ :: _ :: _ => exact .error
  | _ => exact .error

end Reader

/-! ## Records -/

/-- What a field reads from the tree without signs changes a record without signs to what it reads
from the tree. -/
def Field.Blind {σ : Type} (field : Field σ) (f : σ → σ) : Prop :=
  ∀ x : Json, Alike (fun put put' => ∀ s, put (f s) = f (put' s))
    (field.read .tree (.ofJson x.unsigned)) (field.read .tree (.ofJson x))

theorem Field.blind_needed {σ α : Type} {name : String} {reader : Reader α} {put : α → σ → σ}
    {f : σ → σ} {g : α → α} (h : reader.Blind g) (hput : ∀ v s, put (g v) (f s) = f (put v s)) :
    (needed name reader put).Blind f := fun x =>
  (h x).map fun a b hab s => by rw [hab, hput]

theorem Field.blind_defaulted {σ α : Type} {name : String} {reader : Reader α} {put : α → σ → σ}
    {f : σ → σ} {g : α → α} (h : reader.Blind g) (hput : ∀ v s, put (g v) (f s) = f (put v s)) :
    (defaulted name reader put).Blind f := fun x =>
  (h x).map fun a b hab s => by rw [hab, hput]

namespace Record

variable {σ : Type} {r : Record σ} {f : σ → σ}

theorem alike_readItems {fields : List (Field σ)} (h : ∀ field ∈ fields, field.Blind f) (i : Nat)
    (xs : List Json) (state : σ) :
    Alike (fun a b => a.1 = f b.1 ∧ (a.2 = [] ↔ b.2 = []))
      (r.readItems .tree i fields (Draft.ofItems (unsignedItems xs)) (f state))
      (r.readItems .tree i fields (Draft.ofItems xs) state) := by
  induction fields generalizing i xs state with
  | nil => cases xs <;> exact .ok ⟨rfl, by simp [Draft.ofItems, unsignedItems]⟩
  | cons field fields ih =>
    have ih := ih fun field hf => h field (List.mem_cons_of_mem _ hf)
    cases xs with
    | nil =>
      simp only [unsignedItems, Draft.ofItems, readItems]
      split
      · exact .error
      · exact ih (i + 1) [] state
    | cons x xs =>
      refine (h field List.mem_cons_self x).bind fun put put' hput => ?_
      rw [hput]
      exact ih (i + 1) xs (put' state)

theorem alike_readMembers (h : ∀ field ∈ r.fields, field.Blind f)
    (xs : List (String × Json)) (seen : List String) (state : σ) :
    Alike (fun a b => a.1 = b.1 ∧ a.2 = f b.2)
      (r.readMembers .tree (Draft.ofMembers (unsignedMembers xs)) seen (f state))
      (r.readMembers .tree (Draft.ofMembers xs) seen state) := by
  induction xs generalizing seen state with
  | nil => exact .ok ⟨rfl, rfl⟩
  | cons e xs ih =>
    obtain ⟨name, x⟩ := e
    have hname : faulty (Draft.ofString name).name = .ok name := rfl
    simp only [unsignedMembers, Draft.ofMembers, readMembers, hname, bind, Except.bind,
      Draft.skip_ofJson]
    cases hfind : r.fields.find? (·.name == name) with
    | none =>
      dsimp only
      split
      · exact .error
      · exact ih seen state
    | some field =>
      dsimp only
      split
      · exact .error
      · refine Alike.bind (h field (List.mem_of_find?_eq_some hfind) x) fun put put' hput => ?_
        rw [hput]
        exact ih (name :: seen) (put' state)

/-- A record is read blindly if each of its fields is. -/
theorem blind (h : ∀ field ∈ r.fields, field.Blind f) {initial : σ}
    (hinitial : f initial = initial) : (r.reader initial).Blind f := fun x => by
  cases x with
  | array xs =>
    have hitems := alike_readItems h 0 xs initial (r := r)
    rw [hinitial] at hitems
    refine Alike.bind hitems fun a b hab => ?_
    obtain ⟨state, rest⟩ := a
    obtain ⟨state', rest'⟩ := b
    cases rest with
    | nil =>
      cases hab.2.1 rfl
      exact .ok hab.1
    | cons _ _ =>
      cases rest' with
      | nil => cases hab.2.2 rfl
      | cons _ _ => exact .error
  | object xs =>
    have hmembers := alike_readMembers h xs [] initial
    rw [hinitial] at hmembers
    refine Alike.bind hmembers fun a b hab => ?_
    obtain ⟨seen, state⟩ := a
    obtain ⟨seen', state'⟩ := b
    obtain ⟨hseen, hstate⟩ := hab
    subst hseen
    refine Alike.bind (R := fun _ _ => True) (.ok trivial) fun _ _ _ => ?_
    dsimp only
    split
    · exact .error
    · exact .ok hstate
  | _ => exact .error

end Record

end Json

end FeatureFlags
