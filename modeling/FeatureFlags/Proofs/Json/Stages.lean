import FeatureFlags.Json.Named
import FeatureFlags.Proofs.Json.Records

/-!
# Records by stages

A record is read member by member, in the order of the members. Where the fields that occur read
what was written, the record goes through stages that are told by the names of the fields read so
far: each field takes every stage to the next one (`Field.Advances`). So the last stage does not
depend on the order of the members, and the names that occur tell it (`Record.reader_of_stages`).

The readers of single values give back what was written, wherever it stands.
-/

namespace FeatureFlags.Json

open Outcome

/-- A field that takes a record from each stage to the next one by what it reads of a tree. -/
def Field.Advances {σ : Type} (field : Field σ) (origin : Origin) (stage : (String → Bool) → σ)
    (y : Json) : Prop :=
  ∃ put, field.read origin (.ofJson y) = .ok put ∧
    ∀ present, put (stage present) = stage fun name => name == field.name || present name

theorem Field.advances {σ α : Type} {reader : Reader α} {put : α → σ → σ} {origin : Origin}
    {stage : (String → Bool) → σ} {name : String} {y : Json} {v : α} (required : Bool)
    (hread : reader origin (.ofJson y) = .ok v)
    (hput : ∀ present, put v (stage present) = stage fun n => n == name || present n) :
    Advances ⟨name, required, fun origin x => (reader origin x).map put⟩ origin stage y :=
  ⟨put v, map_eq_ok.2 ⟨v, hread, rfl⟩, hput⟩

namespace Record

variable {σ : Type} {r : Record σ} {origin inside : Origin} {stage : (String → Bool) → σ}
  {ms : Entries Json}

/-- Members with distinct names take a record through its stages. -/
theorem readMembers_of_stages (hclosed : r.closed = false) (distinct : (ms.map (·.1)).Nodup)
    (advances : ∀ field ∈ r.fields, ∀ y, ms.get? field.name = some y →
      field.Advances origin stage y)
    (seen : List String) (fresh : ∀ e ∈ ms, e.1 ∉ seen) (present : String → Bool) :
    ∃ seen', r.readMembers origin (Draft.ofMembers ms) seen (stage present) =
      .ok (seen', stage fun name => r.names.contains name && (ms.get? name).isSome ||
        present name) := by
  induction ms generalizing seen present with
  | nil => exact ⟨seen, by simp [Draft.ofMembers, readMembers, Entries.get?]⟩
  | cons e rest ih =>
    obtain ⟨k, y⟩ := e
    obtain ⟨hk, distinctRest⟩ := List.nodup_cons.1 distinct
    obtain ⟨hkseen, freshRest⟩ := List.forall_mem_cons.1 fresh
    have later : ∀ field ∈ r.fields, ∀ y, Entries.get? rest field.name = some y →
        field.Advances origin stage y := fun field hfield y hy => by
      have hne : field.name ≠ k := fun heq =>
        hk (heq ▸ List.mem_map.2 ⟨_, Entries.mem_of_get? hy, rfl⟩)
      exact advances field hfield y (by rw [Entries.get?, if_neg hne, hy])
    cases hfind : r.fields.find? (·.name == k) with
    | none =>
      obtain ⟨seen', hrest⟩ := ih distinctRest later seen freshRest present
      refine ⟨seen', readMembers_cons_eq_ok.2 ⟨k, rfl,
        .inr ⟨hfind, hclosed, Draft.skip_ofJson y, ?_⟩⟩⟩
      rw [hrest]
      congr 3
      funext name
      by_cases heq : name = k
      · have unknown := not_mem_of_find? hfind
        simp [heq, unknown]
      · simp [Entries.get?, heq]
    | some field =>
      obtain ⟨hfield, rfl⟩ := mem_of_find? hfind
      obtain ⟨put, hput, hstage⟩ := advances field hfield y (by simp [Entries.get?])
      obtain ⟨seen', hrest⟩ := ih distinctRest later (field.name :: seen)
        (fun e he => by
          rw [List.mem_cons, not_or]
          exact ⟨fun heq => hk (heq ▸ List.mem_map.2 ⟨e, he, rfl⟩), freshRest e he⟩)
        fun name => name == field.name || present name
      refine ⟨seen', readMembers_cons_eq_ok.2 ⟨field.name, rfl,
        .inl ⟨field, put, hfind, hkseen, hput, ?_⟩⟩⟩
      rw [hstage, hrest]
      congr 3
      funext name
      have known : field.name ∈ r.names := List.mem_map.2 ⟨field, hfield, rfl⟩
      by_cases heq : name = field.name
      · simp [heq, known, Entries.get?]
      · simp [Entries.get?, heq, beq_eq_false_iff_ne.2 heq]

/-- A record is read from an object with distinct names and the required fields up to the stage that
the names tell. -/
theorem reader_of_stages (hclosed : r.closed = false) (henter : origin.enter = .ok inside)
    (distinct : (ms.map (·.1)).Nodup)
    (advances : ∀ field ∈ r.fields, ∀ y, ms.get? field.name = some y →
      field.Advances inside stage y)
    (required : ∀ field ∈ r.fields, field.required = true →
      (ms.get? field.name).isSome = true) :
    r.reader (stage fun _ => false) origin (.ofJson (.object ms)) =
      .ok (stage fun name => r.names.contains name && (ms.get? name).isSome) := by
  obtain ⟨seen, hread⟩ := readMembers_of_stages hclosed distinct advances [] (by simp)
    fun _ => false
  simp only [Bool.or_false] at hread
  refine reader_eq_ok.2 (.inr ⟨_, inside, seen, rfl, henter, hread, fun field hfield hneeded => ?_⟩)
  rw [mem_seen_of_readMembers (List.mem_map.2 ⟨field, hfield, rfl⟩) hread, Draft.under_ofMembers]
  refine .inr fun hnone => ?_
  have hsome := required field hfield hneeded
  rw [Entries.get?_eq_head?_under, List.map_eq_nil_iff.1 hnone] at hsome
  cases hsome

end Record

/-! ## Single values -/

namespace Reader

variable {α : Type} {origin inside : Origin}

theorem list_ofJson {item : Reader α} {toJson : α → Json} (henter : origin.enter = .ok inside)
    {vs : List α} (h : ∀ v ∈ vs, item inside (.ofJson (toJson v)) = .ok v) :
    list item origin (.ofJson (.array (vs.map toJson))) = .ok vs := by
  have items : (Draft.ofItems (vs.map toJson)).mapM (item inside) = .ok vs := by
    rw [Draft.ofItems_eq_map, List.map_map, mapM_eq_ok, List.forall₂_map_left_iff,
      List.forall₂_same]
    exact h
  exact bind_eq_ok.2 ⟨inside, faulty_eq_ok.2 henter,
    bind_eq_ok.2 ⟨vs, items, bind_eq_ok.2 ⟨(), rfl, rfl⟩⟩⟩

theorem members_ofJson {value : Reader α} {toJson : α → Json} (henter : origin.enter = .ok inside)
    {entries : Entries α} (h : ∀ e ∈ entries, value inside (.ofJson (toJson e.2)) = .ok e.2) :
    members value origin (.ofJson (.object (entries.mapValues toJson))) = .ok entries := by
  have values : (Draft.ofMembers (entries.mapValues toJson)).mapM (fun e => do
      let name ← faulty e.1.name
      let v ← value inside e.2
      return (name, v)) = .ok entries := by
    rw [Draft.ofMembers_eq_map, Entries.mapValues, List.map_map, mapM_eq_ok,
      List.forall₂_map_left_iff, List.forall₂_same]
    exact fun e he => bind_eq_ok.2 ⟨e.1, rfl, bind_eq_ok.2 ⟨e.2, h e he, rfl⟩⟩
  exact bind_eq_ok.2 ⟨inside, faulty_eq_ok.2 henter,
    bind_eq_ok.2 ⟨entries, values, bind_eq_ok.2 ⟨(), rfl, rfl⟩⟩⟩

theorem optional_ofJson {inner : Reader α} {y : Json} (hnull : y ≠ .null) {v : α}
    (h : inner origin (.ofJson y) = .ok v) : optional inner origin (.ofJson y) = .ok (some v) := by
  cases y with
  | null => exact absurd rfl hnull
  | _ => exact map_eq_ok.2 ⟨v, h, rfl⟩

theorem uint64_ofJson (n : UInt64) : uint64 origin (.ofJson (.ofUInt64 n)) = .ok n := by
  have below : Text.below? UInt64.size n.toNat = some n.toFin := by
    rw [Text.below?, dif_pos ⟨by omega, n.toNat_lt⟩]
    rfl
  have natural : natural UInt64.size "u64" origin (.ofJson (.ofUInt64 n)) = .ok n.toFin := by
    refine bind_eq_ok.2 ⟨_, rfl, ?_⟩
    simp only [below]
    rfl
  exact map_eq_ok.2 ⟨_, natural, rfl⟩

end Reader

end FeatureFlags.Json

namespace FeatureFlags.Named

open Json Outcome

/-- A value is read by its name. -/
theorem reader_toJson {α : Type} [Named α] {origin : Origin} {a : α}
    (h : ofName? (name a) = some a) : Named.reader origin (.ofJson (toJson a)) = .ok a := by
  have found : Reader.lookup table (name a) = .ok a := by
    unfold ofName? at h
    rw [Reader.lookup, h]
  cases origin <;> exact bind_eq_ok.2 ⟨_, rfl, found⟩

end FeatureFlags.Named
