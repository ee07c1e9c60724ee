import FeatureFlags.Proofs.Json.Drafts

/-!
# Readers as views

A reader `Views` a document if what it takes out of it is a function of the tree. Such readers make
fields that put what they read into a part of a record (`Field.puts`) and leave the other parts
alone (`Field.keeps`). Any reader at all makes a field that fills a part with what it reads
(`Field.fills`).
-/

namespace FeatureFlags.Json

open Outcome

theorem toString?_eq_some {y : Json} {s : String} : y.toString? = some s ↔ y = .string s := by
  cases y <;> simp [toString?]

theorem toArray?_eq_some {y : Json} {ys : List Json} : y.toArray? = some ys ↔ y = .array ys := by
  cases y <;> simp [toArray?]

theorem toMembers?_eq_some {y : Json} {ms : Entries Json} :
    y.toMembers? = some ms ↔ y = .object ms := by
  cases y <;> simp [toMembers?]

namespace Reader

variable {α : Type} {reader : Reader α} {view : Json → Option α}

/-- What a reader takes out of a document is a function of the tree. -/
def Views (reader : Reader α) (view : Json → Option α) : Prop :=
  ∀ origin x v, reader origin x = .ok v ↔ ∃ y, x.json origin = .ok y ∧ view y = some v

theorem faulty_eq_ok {outcome : Except Fault α} {a : α} :
    faulty outcome = .ok a ↔ outcome = .ok a := mapError_eq_ok

theorem mismatch_ne_ok {expected : String} {x : Draft} {a : α} :
    mismatch expected x ≠ .ok a := by
  intro h
  obtain ⟨_, _, h⟩ := bind_eq_ok.1 h
  cases h

/-- A text is read if its value is and nothing follows it. -/
theorem ofText_eq_ok {text : String} {a : α} :
    reader.ofText text = .ok a ↔ reader .whole (Document.ofText text).root = .ok a ∧
      (Document.ofText text).trailing = false := by
  rw [ofText, bind_eq_ok]
  cases (Document.ofText text).trailing with
  | false =>
    constructor
    · rintro ⟨b, hread, h⟩
      cases h
      exact ⟨hread, rfl⟩
    · rintro ⟨hread, -⟩
      exact ⟨a, hread, rfl⟩
  | true =>
    constructor
    · rintro ⟨b, hread, h⟩
      cases h
    · rintro ⟨-, h⟩
      cases h

theorem views_json : Views json some := fun origin x v => by
  simp [json, faulty_eq_ok]

theorem views_string : Views string toString? := fun origin x v => by
  simp only [toString?_eq_some, exists_eq_right, Draft.json_eq_string]
  cases x with
  | string literal => simp [string, stringAs, faulty_eq_ok]
  | _ => simp [string, stringAs, mismatch_ne_ok]

/-- What is seen of a value that may be `null`. -/
def orNull (view : Json → Option α) : Json → Option (Option α)
  | .null => some none
  | y => (view y).map some

theorem Views.optional (h : reader.Views view) : (optional reader).Views (orNull view) :=
  fun origin x v => by
    have inner (hx : x ≠ .null) : (reader origin x).map some = .ok v ↔
        ∃ y, x.json origin = .ok y ∧ orNull view y = some v := by
      rw [map_eq_ok]
      constructor
      · rintro ⟨a, ha, rfl⟩
        obtain ⟨y, hy, hv⟩ := (h origin x a).1 ha
        refine ⟨y, hy, ?_⟩
        cases y with
        | null => exact absurd (Draft.json_eq_null.1 hy) hx
        | _ => exact congrArg (Option.map some) hv
      · rintro ⟨y, hy, hv⟩
        cases y with
        | null => exact absurd (Draft.json_eq_null.1 hy) hx
        | _ =>
          obtain ⟨a, ha, rfl⟩ := Option.map_eq_some_iff.1 hv
          exact ⟨a, (h origin x a).2 ⟨_, hy, ha⟩, rfl⟩
    cases x with
    | null => simp [Reader.optional, Draft.json, orNull]
    | misspelt fault null =>
      cases null with
      | false => exact inner (by simp)
      | true => simp [Reader.optional, Draft.json]
    | _ => exact inner (by simp)

theorem Views.mapM (h : reader.Views view) (origin : Origin) (items : List Draft) (vs : List α) :
    items.mapM (reader origin) = .ok vs ↔
      ∃ ys, Draft.jsonItems origin items = .ok ys ∧ ys.mapM view = some vs := by
  induction items generalizing vs with
  | nil => simp [Draft.jsonItems, pure, Except.pure]
  | cons x xs ih =>
    simp only [List.mapM_cons, bind_eq_ok, h origin x, ih, Draft.jsonItems_cons_eq_ok]
    constructor
    · rintro ⟨v, ⟨y, hy, hv⟩, vs, ⟨ys, hys, hvs⟩, hall⟩
      cases hall
      exact ⟨y :: ys, ⟨y, ys, hy, hys, rfl⟩, by simp [hv, hvs]⟩
    · rintro ⟨_, ⟨y, ys, hy, hys, rfl⟩, hall⟩
      rw [List.mapM_cons] at hall
      obtain ⟨v, hv, hall⟩ := Option.bind_eq_some_iff.1 hall
      obtain ⟨vs, hvs, hall⟩ := Option.bind_eq_some_iff.1 hall
      cases hall
      exact ⟨v, ⟨y, hy, hv⟩, vs, ⟨ys, hys, hvs⟩, rfl⟩

/-- What is seen of the items of an array. -/
def eachItem (view : Json → Option α) (y : Json) : Option (List α) :=
  y.toArray?.bind (·.mapM view)

theorem Views.list (h : reader.Views view) : (list reader).Views (eachItem view) :=
  fun origin x v => by
    have seen : (∃ y, x.json origin = .ok y ∧ eachItem view y = some v) ↔
        ∃ ys, x.json origin = .ok (.array ys) ∧ ys.mapM view = some v := by
      constructor
      · rintro ⟨y, hy, hv⟩
        obtain ⟨ys, hys, hv⟩ := Option.bind_eq_some_iff.1 hv
        exact ⟨ys, toArray?_eq_some.1 hys ▸ hy, hv⟩
      · rintro ⟨ys, hys, hv⟩
        exact ⟨.array ys, hys, hv⟩
    rw [seen]
    cases x with
    | array items close =>
      simp only [Draft.json_array_eq_ok, array.injEq]
      constructor
      · intro hread
        obtain ⟨inside, hinside, hread⟩ := bind_eq_ok.1 hread
        obtain ⟨vs, hvs, hread⟩ := bind_eq_ok.1 hread
        obtain ⟨_, hclose, hread⟩ := bind_eq_ok.1 hread
        cases hread
        obtain ⟨ys, hys, hv⟩ := (h.mapM inside items v).1 hvs
        exact ⟨ys, ⟨Draft.outcome_eq_ok.1 (faulty_eq_ok.1 hclose), inside, ys,
          faulty_eq_ok.1 hinside, hys, rfl⟩, hv⟩
      · rintro ⟨ys, ⟨rfl, inside, _, hinside, hys, rfl⟩, hv⟩
        have hvs := (h.mapM inside items v).2 ⟨_, hys, hv⟩
        exact bind_eq_ok.2 ⟨inside, faulty_eq_ok.2 hinside,
          bind_eq_ok.2 ⟨v, hvs, bind_eq_ok.2 ⟨(), rfl, rfl⟩⟩⟩
    | _ => simp [Reader.list, mismatch_ne_ok, Draft.json_eq_array]

theorem mapM_members (origin : Origin) (entries : List (Draft × Draft)) :
    (entries.mapM fun (k, v) => do
      let name ← faulty k.name
      let v ← json origin v
      return (name, v)) = faulty (Draft.jsonMembers origin entries) := by
  induction entries with
  | nil => rfl
  | cons e rest ih =>
    obtain ⟨k, x⟩ := e
    rw [List.mapM_cons, ih]
    simp only [json, Draft.jsonMembers]
    cases k.name with
    | error e => rfl
    | ok name =>
      cases x.json origin with
      | error e => rfl
      | ok y => cases Draft.jsonMembers origin rest <;> rfl

theorem views_members :
    Views (fun origin x => (members json origin x).map Entries.sort) toMembers? :=
  fun origin x ms => by
    simp only [toMembers?_eq_some, exists_eq_right]
    cases x with
    | object entries close =>
      simp only [Draft.json_object_eq_ok, object.injEq, map_eq_ok, members, mapM_members]
      constructor
      · rintro ⟨ys, hread, rfl⟩
        obtain ⟨inside, hinside, hread⟩ := bind_eq_ok.1 hread
        obtain ⟨_, hys, hread⟩ := bind_eq_ok.1 hread
        obtain ⟨_, hclose, hread⟩ := bind_eq_ok.1 hread
        cases hread
        exact ⟨Draft.outcome_eq_ok.1 (faulty_eq_ok.1 hclose), inside, ys, faulty_eq_ok.1 hinside,
          faulty_eq_ok.1 hys, rfl⟩
      · rintro ⟨rfl, inside, ys, hinside, hys, rfl⟩
        exact ⟨ys, bind_eq_ok.2 ⟨inside, faulty_eq_ok.2 hinside,
          bind_eq_ok.2 ⟨ys, faulty_eq_ok.2 hys, bind_eq_ok.2 ⟨(), rfl, rfl⟩⟩⟩, rfl⟩
    | _ => simp [members, mismatch_ne_ok, Draft.json_eq_object, map_eq_ok]

end Reader

/-! ## Fields -/

namespace Field

variable {σ α : Type} {field : Field σ} {view : Json → Option α} {get : σ → α}

/-- A field that can be read wherever the tree is the given one. -/
def Accepts (field : Field σ) (y : Json) : Prop :=
  ∀ origin x, x.json origin = .ok y → ∃ put, field.read origin x = .ok put

/-- A field whose value can be read as a tree if the field can be read. -/
def Readable (field : Field σ) : Prop :=
  ∀ origin x put, field.read origin x = .ok put → ∃ y, x.json origin = .ok y

/-- A field that puts what is seen of its value into a part of the record. -/
def Puts (field : Field σ) (view : Json → Option α) (get : σ → α) : Prop :=
  ∀ origin x put, field.read origin x = .ok put →
    ∃ y, x.json origin = .ok y ∧ ∀ s, view y = some (get (put s))

/-- A field that fills a part of the record with what can be read of its value. -/
def Fills (field : Field σ) (reads : Origin → Draft → α → Prop) (get : σ → α) : Prop :=
  ∀ origin x put, field.read origin x = .ok put → ∀ s, reads origin x (get (put s))

/-- A field that leaves a part of the record alone. -/
def Keeps (field : Field σ) (get : σ → α) : Prop :=
  ∀ origin x put, field.read origin x = .ok put → ∀ s, get (put s) = get s

theorem accepts {reader : Reader α} (h : reader.Views view) {y : Json} {v : α}
    (hview : view y = some v) (name : String) (required : Bool) (put : α → σ → σ) :
    Accepts ⟨name, required, fun origin x => (reader origin x).map put⟩ y := fun origin x hy =>
  ⟨put v, map_eq_ok.2 ⟨v, (h origin x v).2 ⟨y, hy, hview⟩, rfl⟩⟩

theorem readable {reader : Reader α} (h : reader.Views view) (name : String) (required : Bool)
    (put : α → σ → σ) : Readable ⟨name, required, fun origin x => (reader origin x).map put⟩ := by
  intro origin x put' hread
  obtain ⟨v, hv, -⟩ := map_eq_ok.1 hread
  obtain ⟨y, hy, -⟩ := (h origin x v).1 hv
  exact ⟨y, hy⟩

theorem puts {reader : Reader α} (h : reader.Views view) {put : α → σ → σ}
    (hput : ∀ v s, get (put v s) = v) (name : String) (required : Bool) :
    Puts ⟨name, required, fun origin x => (reader origin x).map put⟩ view get := by
  intro origin x put' hread
  obtain ⟨v, hv, rfl⟩ := map_eq_ok.1 hread
  obtain ⟨y, hy, hview⟩ := (h origin x v).1 hv
  exact ⟨y, hy, fun s => by rw [hput, hview]⟩

theorem Puts.fills (h : field.Puts view get) :
    field.Fills (fun origin x v => ∃ y, x.json origin = .ok y ∧ view y = some v) get :=
  fun origin x put hread s =>
    let ⟨y, hy, hview⟩ := h origin x put hread
    ⟨y, hy, hview s⟩

theorem fills {reader : Reader α} {put : α → σ → σ} (hput : ∀ v s, get (put v s) = v)
    (name : String) (required : Bool) :
    Fills ⟨name, required, fun origin x => (reader origin x).map put⟩
      (fun origin x v => reader origin x = .ok v) get := by
  intro origin x put' hread s
  obtain ⟨v, hv, rfl⟩ := map_eq_ok.1 hread
  rw [hput, hv]

theorem keeps {β : Type} {reader : Reader β} {put : β → σ → σ}
    (hput : ∀ v s, get (put v s) = get s) (name : String) (required : Bool) :
    Keeps ⟨name, required, fun origin x => (reader origin x).map put⟩ get := by
  intro origin x put' hread s
  obtain ⟨v, -, rfl⟩ := map_eq_ok.1 hread
  exact hput v s

end Field

end FeatureFlags.Json
