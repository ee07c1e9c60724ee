import FeatureFlags.Proofs.Json.Records
import Mathlib.Data.List.Nodup

/-!
# The forms of trees that are read

A reader `Takes` a tree if it reads something from it. For each combinator the trees that are taken
have a form that says nothing of readers. A record that is closed takes a tree exactly if the tree
is laid out as a record (`IsRecord`) and each field suits what stands in its place
(`Record.takes_iff`); this is an induction over the members of an object
(`Record.exists_readMembers_iff`) and one over the fields of an array
(`Record.exists_readItems_iff`).

Readers take more than what documents are said to hold: an array for a record, and an object for a
name. A `Writing` says whether this is meant to be included.
-/

namespace FeatureFlags.Json

open Outcome

/-- How a document is written. -/
inductive Writing where
  /-- Records are objects and names are texts. -/
  | strict
  /-- A record may also be an array that holds its fields in their order, and a name may also be an
  object with that one member, which is `null`. -/
  | loose

/-- A tree with fields of the given names and no others. -/
def IsRecord (writing : Writing) (names : List String) : Json → Prop
  | .object ms => (ms.map (·.1)).Nodup ∧ ∀ e ∈ ms, e.1 ∈ names
  | .array ys => writing = .loose ∧ ys.length ≤ names.length
  | _ => False

/-- A tree that stands for one of the given names. -/
def IsName (writing : Writing) (names : List String) (tree : Json) : Prop :=
  ∃ name ∈ names, tree = .string name ∨ writing = .loose ∧ tree = .object [(name, .null)]

/-- A tree that is an object. -/
def IsObject (tree : Json) : Prop := ∃ ms, tree = .object ms

/-- A tree that is a text. -/
def IsText (tree : Json) : Prop := ∃ s, tree = .string s

/-- An array of trees of one form. -/
def IsArrayOf (form : Json → Prop) (tree : Json) : Prop :=
  ∃ ys, tree = .array ys ∧ ∀ y ∈ ys, form y

/-- A tree whose items, if it is an array, all have one form. -/
def EachItem (form : Json → Prop) (tree : Json) : Prop :=
  ∀ ys, tree = .array ys → ∀ y ∈ ys, form y

/-- A natural number of 32 bits. -/
def IsUInt32 (tree : Json) : Prop :=
  ∃ n h, tree = .number (.integer n h) ∧ 0 ≤ n ∧ n < UInt32.size

/-- The strict form of a record is its loose form in an object. -/
theorem isRecord_strict_iff {names : List String} {tree : Json} :
    tree.IsRecord .strict names ↔ tree.IsRecord .loose names ∧ tree.IsObject := by
  cases tree <;> simp [IsRecord, IsObject]

/-- The strict form of a name is its loose form in a text. -/
theorem isName_strict_iff {names : List String} {tree : Json} :
    tree.IsName .strict names ↔ tree.IsName .loose names ∧ tree.IsText := by
  cases tree <;> simp [IsName, IsText]

theorem isArrayOf_and_iff {form more : Json → Prop} {tree : Json} :
    tree.IsArrayOf (fun y => form y ∧ more y) ↔ tree.IsArrayOf form ∧ tree.EachItem more := by
  constructor
  · rintro ⟨ys, rfl, each⟩
    refine ⟨⟨ys, rfl, fun y hy => (each y hy).1⟩, fun _ heq y hy => ?_⟩
    cases heq
    exact (each y hy).2
  · rintro ⟨⟨ys, rfl, each⟩, other⟩
    exact ⟨ys, rfl, fun y hy => ⟨each y hy, other ys rfl y hy⟩⟩

/-! ## Readers -/

namespace Reader

variable {α : Type} {tree : Json}

/-- A reader that takes something out of a tree. -/
def Takes (reader : Reader α) (tree : Json) : Prop := ∃ v, reader.ofTree tree = .ok v

@[simp] theorem takes_string : string.Takes tree ↔ tree.IsText := by
  simp only [Takes, string_ofTree, IsText]

@[simp] theorem takes_json : json.Takes tree := ⟨_, congrArg faulty (Draft.json_ofJson tree)⟩

@[simp] theorem takes_list {item : Reader α} :
    (list item).Takes tree ↔ tree.IsArrayOf item.Takes := by
  simp only [Takes, list_ofTree, IsArrayOf]
  constructor
  · rintro ⟨vs, ys, rfl, each⟩
    exact ⟨ys, rfl, exists_mapM_iff.1 ⟨vs, mapM_eq_ok.2 each⟩⟩
  · rintro ⟨ys, rfl, each⟩
    obtain ⟨vs, hvs⟩ := exists_mapM_iff.2 each
    exact ⟨vs, ys, rfl, mapM_eq_ok.1 hvs⟩

@[simp] theorem takes_optional {inner : Reader α} :
    (optional inner).Takes tree ↔ tree = .null ∨ inner.Takes tree := by
  simp only [Takes, optional_ofTree]
  by_cases hnull : tree = .null
  · simp [hnull]
  · simp only [hnull, false_and, false_or, ne_eq, not_false_eq_true, true_and]
    constructor
    · rintro ⟨_, a, ha, -⟩
      exact ⟨a, ha⟩
    · rintro ⟨a, ha⟩
      exact ⟨_, a, ha, rfl⟩

theorem takes_natural (bound : Nat) (expected : String) :
    (natural bound expected).Takes tree ↔
      ∃ n h, tree = .number (.integer n h) ∧ 0 ≤ n ∧ n < (bound : Int) := by
  cases tree with
  | number number =>
    cases number with
    | integer n h =>
      have read : (natural bound expected).ofTree (.number (.integer n h)) =
          (Text.below? bound n).elim
            (.error (.data (.value (.number (.integer n h)) expected))) .ok := by
        simp only [ofTree, natural, Draft.ofJson, Literal.ok, faulty, Except.mapError, bind,
          Except.bind]
        cases Text.below? bound n <;> rfl
      rw [Takes, read, Text.below?]
      by_cases hn : 0 ≤ n ∧ n.toNat < bound
      · rw [dif_pos hn]
        exact iff_of_true ⟨_, rfl⟩ ⟨n, h, rfl, hn.1, by omega⟩
      · rw [dif_neg hn]
        refine iff_of_false (by simp) ?_
        rintro ⟨m, _, heq, hm⟩
        cases heq
        omega
    | double d => simp [Takes, ofTree, natural, Draft.ofJson, Literal.ok, bind_eq_ok, faulty_eq_ok]
  | _ => simp [Takes, ofTree, natural, Draft.ofJson, mismatch_ne_ok]

@[simp] theorem takes_uint32 : uint32.Takes tree ↔ tree.IsUInt32 := by
  refine Iff.trans ?_ (takes_natural UInt32.size "u32")
  constructor
  · rintro ⟨v, hv⟩
    obtain ⟨n, hn, -⟩ := map_eq_ok.1 hv
    exact ⟨n, hn⟩
  · rintro ⟨n, hn⟩
    exact ⟨_, map_eq_ok.2 ⟨n, hn, rfl⟩⟩

theorem exists_lookup_iff {variants : List (String × α)} {name : String} :
    (∃ v, lookup variants name = .ok v) ↔ name ∈ variants.map (·.1) := by
  induction variants with
  | nil => simp [lookup, throw, throwThe, MonadExceptOf.throw]
  | cons e rest ih =>
    obtain ⟨k, v⟩ := e
    rw [List.map_cons, List.mem_cons, ← ih]
    by_cases hk : name = k
    · simp [lookup, hk]
    · have hb : (name == k) = false := by simpa using hk
      simp only [lookup, List.lookup_cons, hb, hk, false_or]
      cases rest.lookup name <;> simp [throw, throwThe, MonadExceptOf.throw]

/-- A named value is taken from its name, or from an object with that one member. -/
theorem takes_variant {variants : List (String × α)} :
    (variant variants).Takes tree ↔ tree.IsName .loose (variants.map (·.1)) := by
  cases tree with
  | string s =>
    have read : (variant variants).ofTree (.string s) = lookup variants s := rfl
    rw [Takes, read, exists_lookup_iff]
    simp [IsName]
  | object ms =>
    match ms with
    | [] =>
      simp [Takes, ofTree, variant, Draft.ofJson, Draft.ofMembers, IsName, throw, throwThe,
        MonadExceptOf.throw]
    | [(k, y)] =>
      have read : (variant variants).ofTree (.object [(k, y)]) =
          lookup variants k >>= fun value => unit .tree (.ofJson y) >>= fun _ => .ok value := rfl
      have null : (∃ u, unit .tree (.ofJson y) = .ok u) ↔ y = .null := by
        cases y <;> simp [unit, Draft.ofJson, mismatch_ne_ok]
      simp only [Takes, read, bind_eq_ok]
      constructor
      · rintro ⟨_, value, hvalue, u, hu, -⟩
        exact ⟨k, exists_lookup_iff.1 ⟨value, hvalue⟩, .inr ⟨rfl, by rw [null.1 ⟨u, hu⟩]⟩⟩
      · rintro ⟨name, hname, h | ⟨-, h⟩⟩
        · cases h
        · cases h
          obtain ⟨value, hvalue⟩ := exists_lookup_iff.2 hname
          exact ⟨value, value, hvalue, (), rfl, rfl⟩
    | _ :: _ :: _ =>
      simp [Takes, ofTree, variant, Draft.ofJson, Draft.ofMembers, IsName, throw, throwThe,
        MonadExceptOf.throw]
  | _ => simp [Takes, ofTree, variant, Draft.ofJson, mismatch_ne_ok, IsName]

end Reader

/-! ## Records -/

namespace Field

variable {σ α : Type} {name : String} {reader : Reader α} {put : α → σ → σ}

/-- A field that can be read from a tree. -/
def Takes (field : Field σ) (tree : Json) : Prop :=
  ∃ put, field.read .tree (.ofJson tree) = .ok put

/-- A field that can be read from what stands in its place, if anything does. -/
def Suits (field : Field σ) : Option Json → Prop
  | some tree => field.Takes tree
  | none => field.required = false

@[simp] theorem name_needed : (needed name reader put).name = name := rfl

@[simp] theorem name_defaulted : (defaulted name reader put).name = name := rfl

@[simp] theorem suits_needed {part : Option Json} :
    (needed name reader put).Suits part ↔ ∃ y, part = some y ∧ reader.Takes y := by
  cases part with
  | none => simp [Suits, needed]
  | some y => simp [Suits, Takes, needed, map_eq_ok, Reader.Takes, Reader.ofTree]

@[simp] theorem suits_defaulted {part : Option Json} :
    (defaulted name reader put).Suits part ↔ ∀ y, part = some y → reader.Takes y := by
  cases part with
  | none => simp [Suits, defaulted]
  | some y => simp [Suits, Takes, defaulted, map_eq_ok, Reader.Takes, Reader.ofTree]

end Field

namespace Record

variable {σ : Type} {r : Record σ} {initial : σ}

/-- A field is found by its name. -/
theorem find?_of_mem (hnodup : r.names.Nodup) {field : Field σ} (hfield : field ∈ r.fields) :
    r.fields.find? (·.name == field.name) = some field := by
  cases hfind : r.fields.find? (·.name == field.name) with
  | none => exact absurd (List.mem_map.2 ⟨field, hfield, rfl⟩) (not_mem_of_find? hfind)
  | some other =>
    obtain ⟨hother, hname⟩ := mem_of_find? hfind
    rw [List.inj_on_of_nodup_map hnodup hother hfield hname]

/-- The members of an object are read if they are fields that can be read, each of them once. -/
theorem exists_readMembers_iff (hclosed : r.closed = true) (hnodup : r.names.Nodup)
    (ms : Entries Json) (seen : List String) (state : σ) :
    (∃ result, r.readMembers .tree (Draft.ofMembers ms) seen state = .ok result) ↔
      (ms.map (·.1)).Nodup ∧ (∀ e ∈ ms, e.1 ∉ seen) ∧
        ∀ e ∈ ms, ∃ field ∈ r.fields, field.name = e.1 ∧ field.Takes e.2 := by
  induction ms generalizing seen state with
  | nil => exact iff_of_true ⟨_, rfl⟩ ⟨List.nodup_nil, by simp, by simp⟩
  | cons e rest ih =>
    obtain ⟨k, y⟩ := e
    simp only [Draft.ofMembers, readMembers_cons_eq_ok, List.forall_mem_cons, List.map_cons,
      List.nodup_cons]
    constructor
    · rintro ⟨result, found, hfound, ⟨field, put, hfind, hseen, hput, hrest⟩ | ⟨-, hopen, -⟩⟩
      · cases hfound
        obtain ⟨hfield, hname⟩ := mem_of_find? hfind
        obtain ⟨once, fresh, each⟩ := (ih _ _).1 ⟨result, hrest⟩
        refine ⟨⟨fun hmem => ?_, once⟩, ⟨hseen, fun e he hin => ?_⟩,
          ⟨field, hfield, hname, put, hput⟩, each⟩
        · obtain ⟨e, he, rfl⟩ := List.mem_map.1 hmem
          exact fresh e he List.mem_cons_self
        · exact fresh e he (List.mem_cons_of_mem _ hin)
      · exact absurd (hopen.symm.trans hclosed) (by simp)
    · rintro ⟨⟨hk, once⟩, ⟨hseen, fresh⟩, ⟨field, hfield, rfl, put, hput⟩, each⟩
      have laterFresh : ∀ e ∈ rest, e.1 ∉ field.name :: seen := fun e he hin => by
        obtain heq | hin := List.mem_cons.1 hin
        · exact hk (List.mem_map.2 ⟨e, he, heq⟩)
        · exact fresh e he hin
      obtain ⟨result, hrest⟩ := (ih _ (put state)).2 ⟨once, laterFresh, each⟩
      exact ⟨result, field.name, rfl,
        .inl ⟨field, put, find?_of_mem hnodup hfield, hseen, hput, hrest⟩⟩

/-- The items of an array are read if there are no more of them than fields and each field suits the
item in its place. -/
theorem exists_readItems_iff {fields : List (Field σ)} (hnodup : (fields.map (·.name)).Nodup)
    (i : Nat) (ys : List Json) (state : σ) :
    (∃ state', r.readItems .tree i fields (ys.map Draft.ofJson) state = .ok (state', [])) ↔
      ys.length ≤ fields.length ∧
        ∀ field ∈ fields, field.Suits ys[(fields.map (·.name)).idxOf field.name]? := by
  induction fields generalizing i ys state with
  | nil => cases ys <;> simp [readItems]
  | cons field fields ih =>
    obtain ⟨hnot, hnodup⟩ := List.nodup_cons.1 hnodup
    rw [List.forall_mem_cons, List.map_cons, List.idxOf_cons_self]
    have behind : ∀ other ∈ fields,
        (field.name :: fields.map (·.name)).idxOf other.name =
          (fields.map (·.name)).idxOf other.name + 1 := fun other hother =>
      List.idxOf_cons_ne _ fun heq => hnot (List.mem_map.2 ⟨other, hother, heq.symm⟩)
    cases ys with
    | nil =>
      have ih := ih hnodup (i + 1) [] state
      rw [List.map_nil] at ih ⊢
      rw [readItems]
      cases hrequired : field.required with
      | true => simp [Field.Suits, hrequired, throw, throwThe, MonadExceptOf.throw]
      | false =>
        simpa [Field.Suits, hrequired] using ih
    | cons y ys =>
      have later : (∀ other ∈ fields, other.Suits
          (y :: ys)[(field.name :: fields.map (·.name)).idxOf other.name]?) ↔
            ∀ other ∈ fields, other.Suits ys[(fields.map (·.name)).idxOf other.name]? :=
        forall₂_congr fun other hother => by rw [behind other hother, List.getElem?_cons_succ]
      rw [later, List.length_cons, List.length_cons, Nat.succ_le_succ_iff, List.map_cons, readItems]
      simp only [bind_eq_ok]
      constructor
      · rintro ⟨state', put, hput, hrest⟩
        obtain ⟨hlength, each⟩ := (ih hnodup _ _ _).1 ⟨state', hrest⟩
        exact ⟨hlength, ⟨put, hput⟩, each⟩
      · rintro ⟨hlength, ⟨put, hput⟩, each⟩
        obtain ⟨state', hrest⟩ := (ih hnodup (i + 1) ys (put state)).2 ⟨hlength, each⟩
        exact ⟨state', put, hput, hrest⟩

theorem takes_array (hnodup : r.names.Nodup) {ys : List Json} :
    (r.reader initial).Takes (.array ys) ↔ ys.length ≤ r.names.length ∧
      ∀ field ∈ r.fields, field.Suits ys[r.names.idxOf field.name]? := by
  rw [names, List.length_map, ← exists_readItems_iff hnodup 0 ys initial]
  refine exists_congr fun state => ?_
  rw [Reader.ofTree, reader_eq_ok, Draft.ofJson, Draft.ofItems_eq_map]
  constructor
  · rintro (⟨items, inside, hitems, hinside, hread⟩ | ⟨_, _, _, hmembers, -⟩)
    · cases hitems
      cases hinside
      exact hread
    · cases hmembers
  · exact fun hread => .inl ⟨_, _, rfl, rfl, hread⟩

theorem takes_object (hclosed : r.closed = true) (hnodup : r.names.Nodup) {ms : Entries Json} :
    (r.reader initial).Takes (.object ms) ↔
      ((ms.map (·.1)).Nodup ∧ ∀ e ∈ ms, e.1 ∈ r.names) ∧
        ∀ field ∈ r.fields, field.Suits (ms.get? field.name) := by
  have read (state : σ) : (r.reader initial).ofTree (.object ms) = .ok state ↔
      ∃ seen, r.readMembers .tree (Draft.ofMembers ms) [] initial = .ok (seen, state) ∧
        ∀ field ∈ r.fields, field.required = true → field.name ∈ seen := by
    rw [Reader.ofTree, reader_eq_ok, Draft.ofJson]
    constructor
    · rintro (⟨_, _, hitems, -⟩ | ⟨members, inside, seen, hmembers, hinside, hread⟩)
      · cases hitems
      · cases hmembers
        cases hinside
        exact ⟨seen, hread⟩
    · rintro ⟨seen, hread⟩
      exact .inr ⟨_, _, seen, rfl, rfl, hread⟩
  have there {field : Field σ} (hfield : field ∈ r.fields) {seen : List String} {state : σ}
      (hread : r.readMembers .tree (Draft.ofMembers ms) [] initial = .ok (seen, state)) :
      field.name ∈ seen ↔ (ms.get? field.name).isSome = true := by
    rw [mem_seen_of_readMembers (List.mem_map.2 ⟨field, hfield, rfl⟩) hread,
      Draft.under_ofMembers, Entries.get?_eq_head?_under]
    simp
  simp only [Reader.Takes, read]
  constructor
  · rintro ⟨state, seen, hread, hrequired⟩
    obtain ⟨once, -, each⟩ := (exists_readMembers_iff hclosed hnodup ms [] initial).1 ⟨_, hread⟩
    refine ⟨⟨once, fun e he => ?_⟩, fun field hfield => ?_⟩
    · obtain ⟨field, hfield, hname, -⟩ := each e he
      exact List.mem_map.2 ⟨field, hfield, hname⟩
    · cases hget : ms.get? field.name with
      | some y =>
        obtain ⟨other, hother, hname, htakes⟩ := each _ (Entries.mem_of_get? hget)
        exact List.inj_on_of_nodup_map hnodup hother hfield hname ▸ htakes
      | none =>
        by_contra hneeded
        have hseen := hrequired field hfield (by simpa [Field.Suits] using hneeded)
        rw [there hfield hread, hget] at hseen
        cases hseen
  · rintro ⟨⟨once, known⟩, suits⟩
    obtain ⟨⟨seen, state⟩, hread⟩ :=
      (exists_readMembers_iff hclosed hnodup ms [] initial).2
        ⟨once, by simp, fun e he => by
          obtain ⟨field, hfield, hname⟩ := List.mem_map.1 (known e he)
          have hsuits := suits field hfield
          rw [hname, Entries.get?_of_mem_of_nodup once he] at hsuits
          exact ⟨field, hfield, hname, hsuits⟩⟩
    refine ⟨state, seen, hread, fun field hfield hrequired => (there hfield hread).2 ?_⟩
    have hsuits := suits field hfield
    by_contra hnone
    rw [Option.not_isSome_iff_eq_none.1 hnone] at hsuits
    simp [Field.Suits, hrequired] at hsuits

/-- A closed record is read from the trees that are laid out as records and in which each field
suits what stands in its place. -/
theorem takes_iff (hclosed : r.closed = true) (hnodup : r.names.Nodup) {tree : Json} :
    (r.reader initial).Takes tree ↔ tree.IsRecord .loose r.names ∧
      ∀ field ∈ r.fields, field.Suits (tree.part? r.names field.name) := by
  cases tree with
  | array ys => simp only [takes_array hnodup, IsRecord, part?, true_and]
  | object ms => exact takes_object hclosed hnodup
  | _ => simp [Reader.Takes, Reader.ofTree, reader_eq_ok, Draft.ofJson, IsRecord]

end Record

end FeatureFlags.Json
