import FeatureFlags.Proofs.Json.Reading
import FeatureFlags.Proofs.Json.Views

/-!
# Reading records

A record stands in an object with its fields as members, or in an array that holds them in their
order; `part?` finds a field in both. Whatever is read of a record, each part of it is what stands
there, or the initial value where nothing does (`Record.part_of_reader`). An object is read if each
of its fields occurs at most once and can be read (`Record.exists_reader`). A `Slot` is a part that
need not be a function of the tree: it is what its own reader makes of it (`Record.slot_of_reader`).

In a tree each name occurs once, so there nothing has to be said of repetitions
(`Record.part_of_ofTree`, `Record.exists_ofTree`).
-/

namespace FeatureFlags.Json

open Outcome

/-- The part of a record under a name: the member of an object, or the item of an array in the place
of the name. -/
def Draft.part? (names : List String) (x : Draft) (name : String) : Option Draft :=
  match x with
  | .object members _ => (under name members).head?
  | .array items _ => items[names.idxOf name]?
  | _ => none

/-- The part of a record under a name in a tree. -/
def part? (names : List String) (tree : Json) (name : String) : Option Json :=
  match tree with
  | .object members => Entries.get? members name
  | .array items => items[names.idxOf name]?
  | _ => none

namespace Record

variable {σ α : Type} {r : Record σ} {name : String} {view : Json → Option α} {get : σ → α}
  {reads : Origin → Draft → α → Prop} {origin : Origin} {initial : σ}

/-- The names of the fields, in their order. -/
def names (r : Record σ) : List String := r.fields.map (·.name)

/-- The field with the name puts what is seen of its value into a part of the record, and the other
fields leave that part alone. -/
structure Part (r : Record σ) (name : String) (view : Json → Option α) (get : σ → α) : Prop where
  mem : name ∈ r.names
  fields : ∀ field ∈ r.fields,
    (field.name = name ∧ field.Puts view get) ∨ (field.name ≠ name ∧ field.Keeps get)

/-- The field with the name fills a part of the record with what it reads, and the other fields leave
that part alone. -/
structure Slot (r : Record σ) (name : String) (reads : Origin → Draft → α → Prop) (get : σ → α) :
    Prop where
  mem : name ∈ r.names
  fields : ∀ field ∈ r.fields,
    (field.name = name ∧ field.Fills reads get) ∨ (field.name ≠ name ∧ field.Keeps get)

/-- A part is a slot for what is seen of its value in the tree. -/
theorem Part.slot (h : r.Part name view get) :
    r.Slot name (fun origin x v => ∃ y, x.json origin = .ok y ∧ view y = some v) get where
  mem := h.mem
  fields field hfield := (h.fields field hfield).imp_left fun ⟨hname, puts⟩ => ⟨hname, puts.fills⟩

/-- Whatever a field reads can be read as a tree. -/
def Readable (r : Record σ) : Prop := ∀ field ∈ r.fields, field.Readable

theorem mem_of_find? {field : Field σ} (h : r.fields.find? (·.name == name) = some field) :
    field ∈ r.fields ∧ field.name = name :=
  ⟨List.mem_of_find?_eq_some h, by simpa using List.find?_some h⟩

theorem not_mem_of_find? (h : r.fields.find? (·.name == name) = none) : name ∉ r.names := by
  intro hmem
  obtain ⟨field, hfield, rfl⟩ := List.mem_map.1 hmem
  simpa using List.find?_eq_none.1 h field hfield

/-- What reading the first of some members comes to. -/
theorem readMembers_cons_eq_ok {k x : Draft} {rest : List (Draft × Draft)} {seen : List String}
    {state : σ} {result : List String × σ} :
    r.readMembers origin ((k, x) :: rest) seen state = .ok result ↔
      ∃ found, k.name = .ok found ∧
        ((∃ field put, r.fields.find? (·.name == found) = some field ∧ found ∉ seen ∧
            field.read origin x = .ok put ∧
            r.readMembers origin rest (found :: seen) (put state) = .ok result) ∨
          (r.fields.find? (·.name == found) = none ∧ r.closed = false ∧ x.skip = .ok () ∧
            r.readMembers origin rest seen state = .ok result)) := by
  rw [readMembers, bind_eq_ok]
  refine exists_congr fun found => and_congr Reader.faulty_eq_ok ?_
  cases hfind : r.fields.find? (·.name == found) with
  | some field =>
    by_cases hseen : found ∈ seen
    · simp [hseen, throw, throwThe, MonadExceptOf.throw, bind, Except.bind]
    · simp [hseen, bind_eq_ok]
  | none =>
    cases hclosed : r.closed with
    | true => simp [throw, throwThe, MonadExceptOf.throw, bind, Except.bind]
    | false =>
      constructor
      · intro hread
        obtain ⟨_, hskip, hrest⟩ := bind_eq_ok.1 hread
        exact .inr ⟨rfl, rfl, Reader.faulty_eq_ok.1 hskip, hrest⟩
      · rintro (⟨_, _, h, _⟩ | ⟨_, _, hskip, hrest⟩)
        · cases h
        · exact bind_eq_ok.2 ⟨(), Reader.faulty_eq_ok.2 hskip, hrest⟩

/-- What is read from members into a slot stands under its name, which occurs at most once, or the
slot stays as it is. -/
theorem slot_of_readMembers (h : r.Slot name reads get) {members : List (Draft × Draft)}
    {seen seen' : List String} {state state' : σ}
    (hread : r.readMembers origin members seen state = .ok (seen', state')) :
    (Draft.under name members = [] ∧ get state' = get state) ∨
      (name ∉ seen ∧ ∃ x, Draft.under name members = [x] ∧ reads origin x (get state')) := by
  induction members generalizing seen state with
  | nil =>
    cases hread
    exact .inl ⟨rfl, rfl⟩
  | cons e rest ih =>
    obtain ⟨k, x⟩ := e
    obtain ⟨found, hk, ⟨field, put, hfind, hseen, hfield, hrest⟩ | ⟨hfind, -, -, hrest⟩⟩ :=
      readMembers_cons_eq_ok.1 hread
    · obtain ⟨hmem, rfl⟩ := mem_of_find? hfind
      rw [Draft.under_cons hk]
      obtain ⟨hname, fills⟩ | ⟨hname, keeps⟩ := h.fields field hmem
      · rw [if_pos hname]
        obtain ⟨hunder, hget⟩ | ⟨hnot, -⟩ := ih hrest
        · exact .inr ⟨hname ▸ hseen, x, by rw [hunder], hget ▸ fills origin x put hfield state⟩
        · exact absurd (hname ▸ List.mem_cons_self) hnot
      · rw [if_neg hname]
        obtain ⟨hunder, hget⟩ | ⟨hnot, hmore⟩ := ih hrest
        · exact .inl ⟨hunder, hget.trans (keeps origin x put hfield state)⟩
        · exact .inr ⟨fun hin => hnot (List.mem_cons_of_mem _ hin), hmore⟩
    · have hname : found ≠ name := fun heq => not_mem_of_find? hfind (heq ▸ h.mem)
      rw [Draft.under_cons hk, if_neg hname]
      exact ih hrest

/-- The names seen are those of the fields that occur. -/
theorem mem_seen_of_readMembers (hname : name ∈ r.names) {members : List (Draft × Draft)}
    {seen seen' : List String} {state state' : σ}
    (hread : r.readMembers origin members seen state = .ok (seen', state')) :
    name ∈ seen' ↔ name ∈ seen ∨ Draft.under name members ≠ [] := by
  induction members generalizing seen state with
  | nil =>
    cases hread
    simp [Draft.under]
  | cons e rest ih =>
    obtain ⟨k, x⟩ := e
    obtain ⟨found, hk, ⟨field, put, hfind, -, -, hrest⟩ | ⟨hfind, -, -, hrest⟩⟩ :=
      readMembers_cons_eq_ok.1 hread
    · rw [ih hrest, Draft.under_cons hk]
      by_cases heq : found = name
      · simp [heq]
      · simp [heq, Ne.symm heq]
    · have heq : found ≠ name := fun heq => not_mem_of_find? hfind (heq ▸ hname)
      rw [ih hrest, Draft.under_cons hk, if_neg heq]

/-- Members from which a record is read have no fault. -/
theorem skip_of_readMembers (h : r.Readable) {members : List (Draft × Draft)}
    (legible : Draft.LegibleMembers members) {seen : List String} {state : σ}
    {result : List String × σ} (hread : r.readMembers origin members seen state = .ok result) :
    Draft.skipMembers members = .ok () := by
  induction members generalizing seen state with
  | nil => rfl
  | cons e rest ih =>
    obtain ⟨k, x⟩ := e
    obtain ⟨hkl, hxl, hrestl⟩ := legible
    obtain ⟨found, hk, hcase⟩ := readMembers_cons_eq_ok.1 hread
    have hname := Draft.skipName_of_name hkl hk
    obtain ⟨field, put, hfind, -, hfield, hrest⟩ | ⟨-, -, hskip, hrest⟩ := hcase
    · obtain ⟨y, hy⟩ := h field (mem_of_find? hfind).1 origin x put hfield
      simp only [Draft.skipMembers, hname, Draft.skip_of_json x hxl hy, ih hrestl hrest]
      rfl
    · simp only [Draft.skipMembers, hname, hskip, ih hrestl hrest]
      rfl

/-- Members are read if each field occurs at most once and can be read, and the other members can be
skipped. -/
theorem exists_readMembers (hclosed : r.closed = false) {members : List (Draft × Draft)}
    {ys : Entries Json} (legible : Draft.LegibleMembers members)
    (hjson : Draft.jsonMembers origin members = .ok ys) (seen : List String) (state : σ)
    (hfields : ∀ field ∈ r.fields, (Draft.under field.name members).length ≤ 1 ∧
      (field.name ∈ seen → Draft.under field.name members = []) ∧
      ∀ x ∈ Draft.under field.name members, ∃ put, field.read origin x = .ok put) :
    ∃ result, r.readMembers origin members seen state = .ok result := by
  induction members generalizing ys seen state with
  | nil => exact ⟨_, rfl⟩
  | cons e rest ih =>
    obtain ⟨k, x⟩ := e
    obtain ⟨-, hxl, hrestl⟩ := legible
    obtain ⟨found, y, ys, hk, hx, hys, rfl⟩ := Draft.jsonMembers_cons_eq_ok.1 hjson
    have later (field : Field σ) : Draft.under field.name rest ⊆
        Draft.under field.name ((k, x) :: rest) ∧ (Draft.under field.name rest).length ≤
          (Draft.under field.name ((k, x) :: rest)).length := by
      rw [Draft.under_cons hk]
      split
      · exact ⟨List.subset_cons_self _ _, Nat.le_succ _⟩
      · exact ⟨List.Subset.refl _, Nat.le_refl _⟩
    cases hfind : r.fields.find? (·.name == found) with
    | none =>
      obtain ⟨result, hresult⟩ := ih hrestl hys seen state fun field hmem => by
        obtain ⟨once, fresh, readable⟩ := hfields field hmem
        obtain ⟨hsub, hlength⟩ := later field
        exact ⟨Nat.le_trans hlength once, fun hin => List.eq_nil_of_subset_nil (fresh hin ▸ hsub),
          fun x hx => readable x (hsub hx)⟩
      exact ⟨result, readMembers_cons_eq_ok.2 ⟨found, hk,
        .inr ⟨hfind, hclosed, Draft.skip_of_json x hxl hx, hresult⟩⟩⟩
    | some field =>
      obtain ⟨hmem, rfl⟩ := mem_of_find? hfind
      obtain ⟨once, fresh, readable⟩ := hfields field hmem
      rw [Draft.under_cons hk, if_pos rfl] at once fresh readable
      have hseen : field.name ∉ seen := fun hin => by cases fresh hin
      obtain ⟨put, hput⟩ := readable x List.mem_cons_self
      obtain ⟨result, hresult⟩ := ih hrestl hys (field.name :: seen) (put state)
        fun other hother => by
          obtain ⟨once', fresh', readable'⟩ := hfields other hother
          obtain ⟨hsub, hlength⟩ := later other
          refine ⟨Nat.le_trans hlength once', fun hin => ?_, fun x hx => readable' x (hsub hx)⟩
          obtain heq | hin := List.mem_cons.1 hin
          · rw [heq]
            exact List.eq_nil_of_length_eq_zero (by simpa using once)
          · exact List.eq_nil_of_subset_nil (fresh' hin ▸ hsub)
      exact ⟨result, readMembers_cons_eq_ok.2 ⟨field.name, hk,
        .inl ⟨field, put, hfind, hseen, hput, hresult⟩⟩⟩

theorem keeps_of_readItems {fields : List (Field σ)} (h : ∀ field ∈ fields, field.Keeps get)
    {i : Nat} {items rest : List Draft} {state state' : σ}
    (hread : r.readItems origin i fields items state = .ok (state', rest)) :
    get state' = get state := by
  induction fields generalizing i items state with
  | nil =>
    cases hread
    rfl
  | cons field fields ih =>
    obtain ⟨hfield, hfields⟩ := List.forall_mem_cons.1 h
    cases items with
    | nil =>
      rw [readItems] at hread
      split at hread
      · cases hread
      · exact ih hfields hread
    | cons x items =>
      obtain ⟨put, hput, hread⟩ := bind_eq_ok.1 hread
      exact (ih hfields hread).trans (hfield origin x put hput state)

/-- What is read from items into a slot stands in its place, or the slot stays as it is. -/
theorem slot_of_readItems {fields : List (Field σ)} (hnodup : (fields.map (·.name)).Nodup)
    (hmem : name ∈ fields.map (·.name))
    (h : ∀ field ∈ fields,
      (field.name = name ∧ field.Fills reads get) ∨ (field.name ≠ name ∧ field.Keeps get))
    {i : Nat} {items rest : List Draft} {state state' : σ}
    (hread : r.readItems origin i fields items state = .ok (state', rest)) :
    (items[(fields.map (·.name)).idxOf name]? = none ∧ get state' = get state ∧
        ∀ field ∈ fields, field.name = name → field.required = false) ∨
      ∃ x, items[(fields.map (·.name)).idxOf name]? = some x ∧ reads origin x (get state') := by
  induction fields generalizing i items state with
  | nil => cases hmem
  | cons field fields ih =>
    obtain ⟨hnot, hnodup⟩ := List.nodup_cons.1 hnodup
    obtain ⟨hfield, hfields⟩ := List.forall_mem_cons.1 h
    rw [List.map_cons]
    by_cases hname : field.name = name
    · -- The fields behind the one with the name have other names, so they leave the slot alone.
      have others : ∀ other ∈ fields, other.name ≠ name := fun other hother heq =>
        hnot (List.mem_map.2 ⟨other, hother, heq.trans hname.symm⟩)
      have keeps : ∀ other ∈ fields, other.Keeps get := fun other hother =>
        (hfields other hother).elim (fun h => absurd h.1 (others other hother)) (·.2)
      rw [hname, List.idxOf_cons_self]
      cases items with
      | nil =>
        rw [readItems] at hread
        split at hread
        · cases hread
        · rename_i hrequired
          refine .inl ⟨rfl, keeps_of_readItems keeps hread, ?_⟩
          exact List.forall_mem_cons.2 ⟨fun _ => by simpa using hrequired,
            fun other hother heq => absurd heq (others other hother)⟩
      | cons x items =>
        obtain ⟨put, hput, hread⟩ := bind_eq_ok.1 hread
        have fills := hfield.elim (·.2) fun h => absurd hname h.1
        exact .inr ⟨x, rfl, keeps_of_readItems keeps hread ▸ fills origin x put hput state⟩
    · have hmem : name ∈ fields.map (·.name) :=
        (List.mem_cons.1 hmem).resolve_left fun heq => hname heq.symm
      have keeps := hfield.elim (fun h => absurd h.1 hname) (·.2)
      rw [List.idxOf_cons_ne _ hname]
      cases items with
      | nil =>
        rw [readItems] at hread
        split at hread
        · cases hread
        · obtain ⟨-, hget, hrequired⟩ | ⟨x, hx, -⟩ := ih hnodup hmem hfields hread
          · exact .inl ⟨rfl, hget, List.forall_mem_cons.2
              ⟨fun heq => absurd heq hname, hrequired⟩⟩
          · cases hx
      | cons x items =>
        obtain ⟨put, hput, hread⟩ := bind_eq_ok.1 hread
        obtain ⟨hnone, hget, hrequired⟩ | hsome := ih hnodup hmem hfields hread
        · exact .inl ⟨hnone, hget.trans (keeps origin x put hput state),
            List.forall_mem_cons.2 ⟨fun heq => absurd heq hname, hrequired⟩⟩
        · exact .inr hsome

theorem skip_of_readItems {fields : List (Field σ)}
    (h : ∀ field ∈ fields, field.Readable) {i : Nat} {items : List Draft} {state state' : σ}
    (legible : Draft.LegibleItems items)
    (hread : r.readItems origin i fields items state = .ok (state', [])) :
    Draft.skipItems items = .ok () := by
  induction fields generalizing i items state with
  | nil =>
    cases hread
    rfl
  | cons field fields ih =>
    obtain ⟨hfield, hfields⟩ := List.forall_mem_cons.1 h
    cases items with
    | nil => rfl
    | cons x items =>
      obtain ⟨put, hput, hread⟩ := bind_eq_ok.1 hread
      obtain ⟨y, hy⟩ := hfield origin x put hput
      simp only [Draft.skipItems, Draft.skip_of_json x legible.1 hy, ih hfields legible.2 hread]
      rfl

/-- A record is read from an array of no more items than fields, or from an object that has the
required ones. -/
theorem reader_eq_ok {x : Draft} {state : σ} :
    r.reader initial origin x = .ok state ↔
      (∃ items inside, x = .array items none ∧ origin.enter = .ok inside ∧
        r.readItems inside 0 r.fields items initial = .ok (state, [])) ∨
      ∃ members inside seen, x = .object members none ∧ origin.enter = .ok inside ∧
        r.readMembers inside members [] initial = .ok (seen, state) ∧
        ∀ field ∈ r.fields, field.required = true → field.name ∈ seen := by
  have complete {seen : List String} :
      r.fields.find? (fun field => field.required && !seen.contains field.name) = none ↔
        ∀ field ∈ r.fields, field.required = true → field.name ∈ seen := by
    simp
  cases x with
  | array items close =>
    simp only [Draft.array.injEq, reduceCtorEq, false_and, exists_false, or_false]
    constructor
    · intro hread
      obtain ⟨inside, hinside, hread⟩ := bind_eq_ok.1 hread
      obtain ⟨⟨state', rest⟩, hitems, hread⟩ := bind_eq_ok.1 hread
      cases rest with
      | cons _ _ => cases origin <;> cases hread
      | nil =>
        have hread : (faulty (Fault.outcome close) >>= fun _ => .ok state') = .ok state := by
          cases origin <;> exact hread
        obtain ⟨_, hclose, hread⟩ := bind_eq_ok.1 hread
        cases hread
        exact ⟨items, inside, ⟨rfl, Draft.outcome_eq_ok.1 (Reader.faulty_eq_ok.1 hclose)⟩,
          Reader.faulty_eq_ok.1 hinside, hitems⟩
    · rintro ⟨_, inside, ⟨rfl, rfl⟩, hinside, hitems⟩
      refine bind_eq_ok.2 ⟨inside, Reader.faulty_eq_ok.2 hinside, bind_eq_ok.2 ⟨_, hitems, ?_⟩⟩
      cases origin <;> rfl
  | object members close =>
    simp only [Draft.object.injEq, reduceCtorEq, false_and, exists_false, false_or]
    constructor
    · intro hread
      obtain ⟨inside, hinside, hread⟩ := bind_eq_ok.1 hread
      obtain ⟨⟨seen, state'⟩, hmembers, hread⟩ := bind_eq_ok.1 hread
      obtain ⟨_, hclose, hread⟩ := bind_eq_ok.1 hread
      split at hread
      · cases hread
      · rename_i hfind
        cases hread
        exact ⟨members, inside, seen, ⟨rfl, Draft.outcome_eq_ok.1 (Reader.faulty_eq_ok.1 hclose)⟩,
          Reader.faulty_eq_ok.1 hinside, hmembers, complete.1 hfind⟩
    · rintro ⟨_, inside, seen, ⟨rfl, rfl⟩, hinside, hmembers, hrequired⟩
      refine bind_eq_ok.2 ⟨inside, Reader.faulty_eq_ok.2 hinside, bind_eq_ok.2 ⟨_, hmembers, ?_⟩⟩
      refine bind_eq_ok.2 ⟨(), rfl, ?_⟩
      rw [complete.2 hrequired]
      rfl
  | _ => simp [reader, Reader.mismatch_ne_ok]

/-- A slot of a record holds what is read of what stands under its name, or the initial value where
nothing does. -/
theorem slot_of_reader (h : r.Slot name reads get) (hnodup : r.names.Nodup) {x : Draft} {state : σ}
    (hread : r.reader initial origin x = .ok state) :
    (x.part? r.names name = none ∧ get state = get initial ∧
        ∀ field ∈ r.fields, field.name = name → field.required = false) ∨
      ∃ inside d, origin.enter = .ok inside ∧ x.part? r.names name = some d ∧
        reads inside d (get state) := by
  obtain ⟨items, inside, rfl, hinside, hitems⟩ |
    ⟨members, inside, seen, rfl, hinside, hmembers, hrequired⟩ := reader_eq_ok.1 hread
  · obtain hnone | ⟨d, hd, hreads⟩ := slot_of_readItems hnodup h.mem h.fields hitems
    · exact .inl hnone
    · exact .inr ⟨inside, d, hinside, hd, hreads⟩
  · obtain ⟨hunder, hget⟩ | ⟨-, d, hunder, hreads⟩ := slot_of_readMembers h hmembers
    · refine .inl ⟨congrArg List.head? hunder, hget, fun field hfield hname => ?_⟩
      by_contra hneeded
      have hseen := hrequired field hfield (by simpa using hneeded)
      rw [hname, mem_seen_of_readMembers h.mem hmembers] at hseen
      simp [hunder] at hseen
    · exact .inr ⟨inside, d, hinside, congrArg List.head? hunder, hreads⟩

/-- A part of a record is what stands under its name, or the initial value where nothing does. -/
theorem part_of_reader (h : r.Part name view get) (hnodup : r.names.Nodup) {x : Draft} {state : σ}
    (hread : r.reader initial origin x = .ok state) :
    (x.part? r.names name = none ∧ get state = get initial ∧
        ∀ field ∈ r.fields, field.name = name → field.required = false) ∨
      ∃ inside d y, origin.enter = .ok inside ∧ x.part? r.names name = some d ∧
        d.json inside = .ok y ∧ view y = some (get state) := by
  obtain hnone | ⟨inside, d, hinside, hd, y, hy, hview⟩ := slot_of_reader h.slot hnodup hread
  · exact .inl hnone
  · exact .inr ⟨inside, d, y, hinside, hd, hy, hview⟩

/-- A part of a record is seen of a tree in order, or it is the initial value. -/
theorem sorted_of_reader (h : r.Part name view get) (hnodup : r.names.Nodup) {x : Draft} {state : σ}
    (hread : r.reader initial origin x = .ok state) :
    get state = get initial ∨ ∃ y : Json, y.sorted = y ∧ view y = some (get state) := by
  obtain ⟨-, hget, -⟩ | ⟨inside, d, y, -, -, hy, hview⟩ := part_of_reader h hnodup hread
  · exact .inl hget
  · exact .inr ⟨y, Draft.sorted_of_json d hy, hview⟩

/-- A record is read from an object or an array without a fault. -/
theorem skip_of_reader (h : r.Readable) {x : Draft} (legible : x.Legible) {state : σ}
    (hread : r.reader initial origin x = .ok state) : x.skip = .ok () := by
  obtain ⟨items, inside, rfl, -, hitems⟩ | ⟨members, inside, seen, rfl, -, hmembers, -⟩ :=
    reader_eq_ok.1 hread
  · simp only [Draft.skip, skip_of_readItems h legible hitems]
    rfl
  · simp only [Draft.skip, skip_of_readMembers h legible hmembers]
    rfl

/-- A record is read from an object in which each field occurs at most once, the required ones occur
and each one that occurs can be read. -/
theorem exists_reader (hclosed : r.closed = false) {x : Draft} (legible : x.Legible)
    {ms : Entries Json} (hjson : x.json origin = .ok (.object ms))
    (hfields : ∀ field ∈ r.fields, x.occurrences field.name ≤ 1 ∧
      (field.required = true → (ms.get? field.name).isSome = true) ∧
      ∀ y, ms.get? field.name = some y → field.Accepts y) :
    ∃ state, r.reader initial origin x = .ok state := by
  obtain ⟨members, inside, ys, rfl, hinside, hmembers, rfl⟩ := Draft.json_eq_object.1 hjson
  have found (field : Field σ) (hfield : field ∈ r.fields) :=
    Draft.get?_of_jsonMembers (hfields field hfield).1 hmembers
  obtain ⟨⟨seen, state⟩, hread⟩ := exists_readMembers hclosed legible hmembers [] initial
    fun field hfield => by
      obtain ⟨once, -, accepts⟩ := hfields field hfield
      refine ⟨once, fun hin => (by cases hin), fun x hx => ?_⟩
      obtain ⟨x', hunder⟩ := List.length_eq_one_iff.1
        (Nat.le_antisymm once (List.length_pos_of_mem hx))
      obtain ⟨y, hy, hx'⟩ := rel_some_left.1 (hunder ▸ found field hfield)
      rw [hunder, List.mem_singleton] at hx
      exact accepts y hy inside x (hx ▸ hx')
  refine ⟨state, reader_eq_ok.2 (.inr ⟨members, inside, seen, rfl, hinside, hread,
    fun field hfield hrequired => ?_⟩)⟩
  rw [mem_seen_of_readMembers (List.mem_map.2 ⟨field, hfield, rfl⟩) hread]
  refine .inr fun hunder => ?_
  have hnone := rel_none_left.1 (hunder ▸ found field hfield)
  have hsome := (hfields field hfield).2.1 hrequired
  simp [hnone] at hsome

/-- A part of a record that is read from an object is what stands in its tree. -/
theorem part_of_object (h : r.Part name view get) (hnodup : r.names.Nodup) {x : Draft}
    (once : x.occurrences name ≤ 1) {ms : Entries Json}
    (hjson : x.json origin = .ok (.object ms)) {state : σ}
    (hread : r.reader initial origin x = .ok state) :
    (ms.get? name = none ∧ get state = get initial) ∨
      ∃ y, ms.get? name = some y ∧ view y = some (get state) := by
  obtain ⟨members, inside, ys, rfl, hinside, hmembers, rfl⟩ := Draft.json_eq_object.1 hjson
  have found := Draft.get?_of_jsonMembers once hmembers
  obtain ⟨hnone, hget, -⟩ | ⟨inside', d, y, hinside', hd, hy, hview⟩ :=
    part_of_reader h hnodup hread
  · rw [show (Draft.under name members).head? = none from hnone] at found
    exact .inl ⟨rel_none_left.1 found, hget⟩
  · rw [show (Draft.under name members).head? = some d from hd] at found
    obtain ⟨y', hy', hd'⟩ := rel_some_left.1 found
    cases hinside.symm.trans hinside'
    cases hy.symm.trans hd'
    exact .inr ⟨y, hy', hview⟩

end Record

/-! ## Trees -/

/-- The items of the array that stands under a name in a tree. -/
def itemsAt (names : List String) (tree : Json) (name : String) : List Json :=
  ((tree.part? names name).bind toArray?).getD []

namespace Draft

theorem under_ofMembers (name : String) (ms : Entries Json) :
    under name (ofMembers ms) = (ms.under name).map ofJson := by
  induction ms with
  | nil => rfl
  | cons e rest ih =>
    obtain ⟨k, y⟩ := e
    have hname : (ofString k).name = .ok k := rfl
    rw [ofMembers, under_cons hname, Entries.under_cons, ih]
    split <;> rfl

theorem ofItems_eq_map (ys : List Json) : ofItems ys = ys.map ofJson := by
  induction ys with
  | nil => rfl
  | cons y ys ih => rw [ofItems, ih, List.map_cons]

theorem ofMembers_eq_map (ms : Entries Json) :
    ofMembers ms = ms.map fun e => (ofString e.1, ofJson e.2) := by
  induction ms with
  | nil => rfl
  | cons e ms ih => rw [ofMembers, ih, List.map_cons]

theorem part?_ofJson (names : List String) (name : String) (tree : Json) :
    (ofJson tree).part? names name = (tree.part? names name).map ofJson := by
  cases tree with
  | object ms =>
    simp only [ofJson, part?, Json.part?, under_ofMembers, List.head?_map,
      Entries.get?_eq_head?_under]
  | array ys => simp only [ofJson, part?, Json.part?, ofItems_eq_map, List.getElem?_map]
  | _ => rfl

mutual

/-- Nothing in the draft of a tree is at fault. -/
theorem legible_ofJson : ∀ tree : Json, (ofJson tree).Legible
  | .null => trivial
  | .bool _ => trivial
  | .number _ => Literal.legible_of_skipped
  | .string _ => Literal.legible_of_skipped
  | .array ys => legible_ofItems ys
  | .object ms => legible_ofMembers ms

theorem legible_ofItems : ∀ ys : List Json, LegibleItems (ofItems ys)
  | [] => trivial
  | y :: ys => ⟨legible_ofJson y, legible_ofItems ys⟩

theorem legible_ofMembers : ∀ ms : List (String × Json), LegibleMembers (ofMembers ms)
  | [] => trivial
  | (_, y) :: ms => ⟨Literal.legible_of_skipped, legible_ofJson y, legible_ofMembers ms⟩

end

end Draft

namespace Reader

variable {α : Type} {tree : Json}

/-- A reader that takes nothing out of a tree. -/
def Refuses (reader : Reader α) (tree : Json) : Prop := ∀ v, reader.ofTree tree ≠ .ok v

theorem string_ofTree {s : String} : string.ofTree tree = .ok s ↔ tree = .string s := by
  cases tree with
  | string t => simp [ofTree, string, stringAs, Draft.ofJson, Literal.ok, faulty_eq_ok]
  | _ => simp [ofTree, string, stringAs, Draft.ofJson, mismatch_ne_ok]

theorem list_ofTree {item : Reader α} {vs : List α} :
    (list item).ofTree tree = .ok vs ↔
      ∃ ys, tree = .array ys ∧ List.Forall₂ (fun y v => item.ofTree y = .ok v) ys vs := by
  cases tree with
  | array ys =>
    have items : (list item).ofTree (.array ys) = ys.mapM item.ofTree := by
      change ((Draft.ofItems ys).mapM (item .tree) >>= pure) = _
      rw [bind_pure, Draft.ofItems_eq_map, List.mapM_map]
      rfl
    simp only [items, mapM_eq_ok, array.injEq, exists_eq_left']
  | _ => simp [ofTree, Draft.ofJson, list, mismatch_ne_ok]

theorem optional_ofTree {inner : Reader α} {v : Option α} :
    (optional inner).ofTree tree = .ok v ↔ tree = .null ∧ v = none ∨
      tree ≠ .null ∧ ∃ a, inner.ofTree tree = .ok a ∧ some a = v := by
  cases tree with
  | null => simp [ofTree, Draft.ofJson, optional, eq_comm]
  | _ => simp [ofTree, Draft.ofJson, optional, map_eq_ok]

end Reader

/-- A tree in order stays as it is. -/
theorem sorted_sorted (x : Json) : x.sorted.sorted = x.sorted :=
  Draft.sorted_of_json _ (Draft.json_ofJson x)

theorem sortedItems_eq_map (ys : List Json) : sortedItems ys = ys.map sorted := by
  induction ys with
  | nil => rfl
  | cons y ys ih => rw [sortedItems, ih, List.map_cons]

/-- The members of a tree in order are in order, and so are the trees below them. -/
theorem members_of_sorted {ms : Entries Json} (h : (Json.object ms).sorted = .object ms) :
    ms.Sorted ∧ ms.mapValues sorted = ms := by
  rw [sorted, sortedMembers_eq_mapValues, ← Entries.mapValues_sort, object.injEq] at h
  have inOrder : ms.Sorted := h ▸ Entries.sorted_mapValues (Entries.sorted_sort ms) sorted
  rw [Entries.sort_eq_self inOrder] at h
  exact ⟨inOrder, h⟩

/-- Of members with trees in order only the names have to be put in order. -/
theorem sorted_object {ms : Entries Json} (below : ∀ e ∈ ms, e.2.sorted = e.2) :
    (Json.object ms).sorted = .object ms.sort := by
  have values : ms.mapValues sorted = ms :=
    (List.map_congr_left fun e he => by rw [below e he, id_eq]).trans (List.map_id ms)
  rw [sorted, sortedMembers_eq_mapValues, values]

/-- Members in order, with trees in order below them, make a tree in order. -/
theorem sorted_of_members {ms : Entries Json} (inOrder : ms.Sorted)
    (below : ∀ e ∈ ms, e.2.sorted = e.2) : (Json.object ms).sorted = .object ms := by
  rw [sorted_object below, Entries.sort_eq_self inOrder]

/-- The object of a map is in order if its values are. -/
theorem sorted_of_dict {α : Type} (d : Dict α) {toJson : α → Json}
    (below : ∀ e ∈ d.entries, (toJson e.2).sorted = toJson e.2) :
    (Json.object (d.entries.mapValues toJson)).sorted = .object (d.entries.mapValues toJson) := by
  refine sorted_of_members (Entries.sorted_mapValues d.sorted toJson) fun e he => ?_
  obtain ⟨entry, hentry, rfl⟩ := List.mem_map.1 he
  exact below entry hentry

theorem sorted_of_part? {names : List String} {name : String} {tree y : Json}
    (h : tree.sorted = tree) (hpart : tree.part? names name = some y) : y.sorted = y := by
  cases tree with
  | object ms =>
    have found := Entries.get?_mapValues sorted ms name
    rw [(members_of_sorted h).2, show Entries.get? ms name = some y from hpart] at found
    exact (Option.some.inj found).symm
  | array ys =>
    rw [sorted, sortedItems_eq_map, array.injEq] at h
    have found : (ys.map sorted)[names.idxOf name]? = (ys[names.idxOf name]?).map sorted :=
      List.getElem?_map
    rw [h, show ys[names.idxOf name]? = some y from hpart] at found
    exact (Option.some.inj found).symm
  | _ => cases hpart

theorem sorted_of_mem {ms : Entries Json} (h : (Json.object ms).sorted = .object ms)
    {e : String × Json} (he : e ∈ ms) : e.2.sorted = e.2 := by
  have hpart : (Json.object ms).part? [] e.1 = some e.2 :=
    Entries.get?_of_mem (members_of_sorted h).1 he
  exact sorted_of_part? h hpart

namespace Record

variable {σ α : Type} {r : Record σ} {name : String} {view : Json → Option α} {get : σ → α}
  {reads : Origin → Draft → α → Prop} {initial : σ}

/-- A slot of a record that is read from a tree holds what is read of the tree that stands there. -/
theorem slot_of_ofTree (h : r.Slot name reads get) (hnodup : r.names.Nodup) {tree : Json}
    {state : σ} (hread : (r.reader initial).ofTree tree = .ok state) :
    (tree.part? r.names name = none ∧ get state = get initial ∧
        ∀ field ∈ r.fields, field.name = name → field.required = false) ∨
      ∃ y, tree.part? r.names name = some y ∧ reads .tree (.ofJson y) (get state) := by
  obtain ⟨hnone, hmore⟩ | ⟨inside, d, hinside, hd, hreads⟩ := slot_of_reader h hnodup hread
  · rw [Draft.part?_ofJson, Option.map_eq_none_iff] at hnone
    exact .inl ⟨hnone, hmore⟩
  · rw [Draft.part?_ofJson, Option.map_eq_some_iff] at hd
    obtain ⟨y, hy, rfl⟩ := hd
    cases hinside
    exact .inr ⟨y, hy, hreads⟩

/-- A slot that has to be filled is filled by each tree from which the record is read. -/
theorem required_slot_of_ofTree (h : r.Slot name reads get) (hnodup : r.names.Nodup)
    {field : Field σ} (hfield : field ∈ r.fields) (hname : field.name = name)
    (hrequired : field.required = true) {tree : Json} {state : σ}
    (hread : (r.reader initial).ofTree tree = .ok state) :
    ∃ y, tree.part? r.names name = some y ∧ reads .tree (.ofJson y) (get state) := by
  obtain ⟨-, -, hnot⟩ | hslot := slot_of_ofTree h hnodup hread
  · exact absurd (hnot field hfield hname) (by simp [hrequired])
  · exact hslot

/-- A slot for a list is filled item by item. -/
theorem items_of_ofTree {item : Reader α} {get : σ → List α}
    (h : r.Slot name (fun origin x vs => Reader.list item origin x = .ok vs) get)
    (hnodup : r.names.Nodup) (hinitial : get initial = []) {tree : Json} {state : σ}
    (hread : (r.reader initial).ofTree tree = .ok state) :
    List.Forall₂ (fun y v => item.ofTree y = .ok v) (tree.itemsAt r.names name) (get state) := by
  obtain ⟨hnone, hget, -⟩ | ⟨y, hy, hlist⟩ := slot_of_ofTree h hnodup hread
  · rw [itemsAt, hnone, hget, hinitial]
    exact .nil
  · obtain ⟨ys, rfl, hitems⟩ := Reader.list_ofTree.1 hlist
    rw [itemsAt, hy]
    exact hitems

/-- A record with a slot for a list cannot be read if one of the items cannot. -/
theorem refuses_of_item {item : Reader α} {get : σ → List α}
    (h : r.Slot name (fun origin x vs => Reader.list item origin x = .ok vs) get)
    (hnodup : r.names.Nodup) (hinitial : get initial = []) {tree y : Json}
    (hy : y ∈ tree.itemsAt r.names name) (refused : item.Refuses y) :
    (r.reader initial).Refuses tree := by
  intro state hread
  have items := mapM_eq_ok.2 (items_of_ofTree h hnodup hinitial hread)
  exact (exists_mapM_iff.1 ⟨_, items⟩ y hy).elim refused

/-- A part of a record that is read from a tree is what stands there. -/
theorem part_of_ofTree (h : r.Part name view get) (hnodup : r.names.Nodup) {tree : Json}
    (inOrder : tree.sorted = tree) {state : σ}
    (hread : (r.reader initial).ofTree tree = .ok state) :
    (tree.part? r.names name = none ∧ get state = get initial ∧
        ∀ field ∈ r.fields, field.name = name → field.required = false) ∨
      ∃ y, tree.part? r.names name = some y ∧ view y = some (get state) := by
  obtain hnone | ⟨z, hz, y, hy, hview⟩ := slot_of_ofTree h.slot hnodup hread
  · exact .inl hnone
  · rw [Draft.json_ofJson, sorted_of_part? inOrder hz] at hy
    cases hy
    exact .inr ⟨_, hz, hview⟩

/-- A part of a record that has to be there stands in each tree from which the record is read. -/
theorem required_of_ofTree (h : r.Part name view get) (hnodup : r.names.Nodup)
    {field : Field σ} (hfield : field ∈ r.fields) (hname : field.name = name)
    (hrequired : field.required = true) {tree : Json} (inOrder : tree.sorted = tree) {state : σ}
    (hread : (r.reader initial).ofTree tree = .ok state) :
    ∃ y, tree.part? r.names name = some y ∧ view y = some (get state) := by
  obtain ⟨z, hz, y, hy, hview⟩ :=
    required_slot_of_ofTree h.slot hnodup hfield hname hrequired hread
  rw [Draft.json_ofJson, sorted_of_part? inOrder hz] at hy
  cases hy
  exact ⟨_, hz, hview⟩

/-- A record is read from an object in a tree if the required fields occur and each one that occurs
can be read. -/
theorem exists_ofTree (hclosed : r.closed = false) {ms : Entries Json}
    (inOrder : (Json.object ms).sorted = .object ms)
    (hfields : ∀ field ∈ r.fields, (field.required = true → (ms.get? field.name).isSome = true) ∧
      ∀ y, ms.get? field.name = some y → field.Accepts y) :
    ∃ state, (r.reader initial).ofTree (.object ms) = .ok state := by
  have hjson := Draft.json_ofJson (.object ms)
  rw [inOrder] at hjson
  refine exists_reader hclosed (Draft.legible_ofJson _) hjson fun field hfield =>
    ⟨?_, hfields field hfield⟩
  rw [Draft.ofJson, Draft.occurrences, Draft.under_ofMembers, List.length_map]
  exact Entries.length_under_le_one (members_of_sorted inOrder).1 field.name

end Record

end FeatureFlags.Json
