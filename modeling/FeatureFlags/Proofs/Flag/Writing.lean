import FeatureFlags.Proofs.Flag.WellFormed
import FeatureFlags.Proofs.Json.Stages

/-!
# Flags written and read again

A definition that was read from a tree is written as a tree from which the same definition is read,
whether the members stand as they are written or in order (`FlagDefinition.ofJson_toJson`).

Each value is the one that its tree stands for, so a number keeps its kind. What was read is in
order (`FlagEntry.InOrder`), so reading it again does not rearrange it; and targeting that does not
count was dropped when the definition was read.
-/

namespace FeatureFlags

open Json Outcome

/-! ## Values -/

namespace FlagValue

/-- A value is the one that its tree stands for. -/
theorem standsFor_toJson (value : FlagValue) : value.toJson.StandsFor value := by
  cases value with
  | bool b => exact .bool b
  | string s => exact .string s
  | integer n => exact .integer (.integer n _)
  | double x => exact .double (.double x)
  | struct members => exact .struct members

theorem ofJson?_toJson (value : FlagValue) : ofJson? value.toJson = some value :=
  ofJson?_eq_some.2 value.standsFor_toJson

/-- A value that is made of a tree in order is written as a tree in order. -/
theorem sorted_toJson {x : Json} (inOrder : x.sorted = x) {value : FlagValue}
    (h : ofJson? x = some value) : value.toJson.sorted = value.toJson := by
  cases x with
  | object members =>
    cases h
    exact inOrder
  | number n =>
    cases h
    unfold ofNumber
    split <;> rfl
  | _ =>
    cases h
    try rfl

end FlagValue

namespace MetadataValue

/-- A scalar is the one that its tree stands for. -/
theorem ofJson?_toJson (value : MetadataValue) : ofJson? value.toJson = some value :=
  ofJson?_eq_some.2 (standsForScalar_iff.2 value.toFlagValue.standsFor_toJson)

theorem sorted_toJson (value : MetadataValue) : value.toJson.sorted = value.toJson := by
  cases value <;> rfl

end MetadataValue

/-! ## Entries -/

namespace FlagEntry

open Reader

/-- The entry with the parts that are present. -/
def stage (entry : FlagEntry) (present : String → Bool) : FlagEntry where
  state := if present "state" then entry.state else ""
  variants := if present "variants" then entry.variants else []
  defaultVariant := if present "defaultVariant" then entry.defaultVariant else ""
  targeting := if present "targeting" then entry.targeting else none
  metadata := if present "metadata" then entry.metadata else []

theorem membersReader_ofJson {ms : Entries Json} (h : (Json.object ms).sorted = .object ms) :
    membersReader .tree (.ofJson (.object ms)) = .ok ms :=
  (views_membersReader _ _ _).2 ⟨.object ms, by rw [Draft.json_ofJson, h], rfl⟩

/-- What stands under the names of an entry's parts in an object that it is written as. -/
structure Written (entry : FlagEntry) (ms : Entries Json) : Prop where
  distinct : (ms.map (·.1)).Nodup
  state : ms.get? "state" = some (.string entry.state)
  variants : ms.get? "variants" = some (.object entry.variants)
  defaultVariant : ms.get? "defaultVariant" = some (.string entry.defaultVariant)
  targeting : ms.get? "targeting" = entry.targeting
  metadata : ms.get? "metadata" = some (.object entry.metadata)

/-- In the order of their names the members say the same. -/
theorem Written.sort {entry : FlagEntry} {ms : Entries Json} (h : entry.Written ms) :
    entry.Written ms.sort := by
  have same := Entries.get?_sort_of_nodup h.distinct
  exact ⟨Entries.nodup_of_sorted (Entries.sorted_sort ms), (same _).trans h.state,
    (same _).trans h.variants, (same _).trans h.defaultVariant, (same _).trans h.targeting,
    (same _).trans h.metadata⟩

/-- An entry without trees out of order, whose targeting is not `null`. -/
structure InOrder (entry : FlagEntry) : Prop where
  variants : (Json.object entry.variants).sorted = .object entry.variants
  targeting : ∀ tree, entry.targeting = some tree → tree.sorted = tree ∧ tree ≠ .null
  metadata : (Json.object entry.metadata).sorted = .object entry.metadata

/-- An entry is read from an object that it is written as. -/
theorem Written.ofTree {entry : FlagEntry} {ms : Entries Json} (written : entry.Written ms)
    (inOrder : entry.InOrder) : (record.reader {}).ofTree (.object ms) = .ok entry := by
  have advances : ∀ field ∈ record.fields, ∀ y, ms.get? field.name = some y →
      field.Advances .tree entry.stage y := by
    simp only [record, List.forall_mem_cons]
    refine ⟨fun y hy => ?_, fun y hy => ?_, fun y hy => ?_, fun y hy => ?_, fun y hy => ?_, by simp⟩
    · cases written.state.symm.trans hy
      exact Field.advances true rfl fun present => by simp [stage]
    · cases written.variants.symm.trans hy
      exact Field.advances true (membersReader_ofJson inOrder.variants) fun present => by
        simp [stage]
    · cases written.defaultVariant.symm.trans hy
      exact Field.advances true rfl fun present => by simp [stage]
    · have htargeting : entry.targeting = some y := written.targeting.symm.trans hy
      obtain ⟨sorted, hnull⟩ := inOrder.targeting y htargeting
      have hread : json .tree (.ofJson y) = .ok y := by
        rw [json, Draft.json_ofJson, sorted]
        rfl
      exact Field.advances false (optional_ofJson hnull hread) fun present => by
        simp [stage, htargeting]
    · cases written.metadata.symm.trans hy
      exact Field.advances false (membersReader_ofJson inOrder.metadata) fun present => by
        simp [stage]
  have required : ∀ field ∈ record.fields, field.required = true →
      (ms.get? field.name).isSome = true := by
    simp [record, Field.needed, Field.defaulted, written.state, written.variants,
      written.defaultVariant]
  have enter : Origin.tree.enter = .ok .tree := rfl
  refine (Record.reader_of_stages rfl enter written.distinct advances required).trans ?_
  have targeting : (if entry.targeting.isSome = true then entry.targeting else none) =
      entry.targeting := by
    cases entry.targeting <;> rfl
  simp [stage, Record.names, record, Field.needed, Field.defaulted, written.state,
    written.variants, written.defaultVariant, written.targeting, written.metadata, targeting]

end FlagEntry

/-! ## Definitions -/

namespace FlagDefinition

/-- The entry that a definition is written as. -/
def entry (flag : FlagDefinition) : FlagEntry where
  state := Named.name flag.state
  variants := flag.variants.entries.mapValues FlagValue.toJson
  defaultVariant := flag.defaultVariant
  targeting := flag.targeting
  metadata := flag.metadata.entries.mapValues MetadataValue.toJson

/-- A definition is made again of the entry that it is written as. -/
theorem WellFormed.ofEntry {key : String} {flag : FlagDefinition} (h : flag.WellFormed key) :
    FlagDefinition.ofEntry key flag.entry = .ok flag := by
  have targeting : flag.targeting = effectiveTargeting flag.entry.targeting := by
    cases htargeting : flag.targeting with
    | none => simp [entry, htargeting, effectiveTargeting]
    | some tree =>
      refine (effectiveTargeting_eq_some.2 ⟨htargeting, fun hnull => ?_, fun hempty => ?_⟩).symm
      · exact h.targeting.1 (hnull ▸ htargeting)
      · exact h.targeting.2 (hempty ▸ htargeting)
  have nonempty : flag.entry.variants ≠ [] := by
    simpa [entry, Entries.mapValues] using List.isEmpty_eq_false_iff.1 h.variants
  exact ofEntry_eq_ok.2 ⟨rfl, nonempty, Entries.checked_mapValues FlagValue.ofJson?_toJson _,
    Dict.mem_keys_iff.1 h.defaultVariant,
    Entries.checked_mapValues MetadataValue.ofJson?_toJson _, h.key_eq, rfl, targeting⟩

/-- A definition that was read holds no tree out of order. -/
theorem inOrder_of_ofJson {key : String} {tree : Json} {flag : FlagDefinition}
    (h : ofJson key tree = .ok flag) : flag.entry.InOrder := by
  obtain ⟨-, read, hread, hflag⟩ := ofJson_eq_ok.1 h
  obtain ⟨-, -, hvariants, -, -, -, -, htargeting⟩ := ofEntry_eq_ok.1 hflag
  have variants : (Json.object read.variants).sorted = .object read.variants := by
    obtain hnone | ⟨y, inOrder, hview⟩ :=
      Record.sorted_of_reader FlagEntry.part_variants FlagEntry.nodup_names hread
    · rw [hnone]
      rfl
    · exact toMembers?_eq_some.1 hview ▸ inOrder
  constructor
  · refine sorted_of_dict flag.variants fun (name, value) hmem => ?_
    have found := Entries.get?_of_checked (members_of_sorted variants).1 hvariants name
    rw [Dict.mem_entries_iff.1 hmem] at found
    obtain ⟨x, hx, hvalue⟩ := rel_some_right.1 found
    exact FlagValue.sorted_toJson (sorted_of_mem variants (Entries.mem_of_get? hx)) hvalue
  · intro rule hrule
    obtain ⟨hread', hnull, -⟩ := effectiveTargeting_eq_some.1 (htargeting.symm.trans hrule)
    obtain hnone | ⟨y, inOrder, hview⟩ :=
      Record.sorted_of_reader FlagEntry.part_targeting FlagEntry.nodup_names hread
    · cases hnone.symm.trans hread'
    · obtain ⟨rfl, -⟩ := (FlagEntry.orNull_some hview rule).1 hread'
      exact ⟨inOrder, hnull⟩
  · exact sorted_of_dict flag.metadata fun e _ => MetadataValue.sorted_toJson e.2

/-- The members of the object that a definition is written as. -/
def members (flag : FlagDefinition) : Entries Json :=
  [("key", .string flag.key), ("state", Named.toJson flag.state),
    ("variants", .object flag.entry.variants), ("defaultVariant", .string flag.defaultVariant)] ++
  (flag.targeting.map fun tree => ("targeting", tree)).toList ++
  [("metadata", flag.metadata.toJson)]

theorem toJson_eq (flag : FlagDefinition) : flag.toJson = .object flag.members := rfl

theorem written_members (flag : FlagDefinition) : flag.entry.Written flag.members := by
  constructor <;> cases htargeting : flag.targeting <;>
    simp [members, entry, htargeting, Entries.get?, Named.toJson, Metadata.toJson]

/-- Of a definition in order only the names have to be put in order. -/
theorem sorted_toJson {flag : FlagDefinition} (inOrder : flag.entry.InOrder) :
    flag.toJson.sorted = .object flag.members.sort := by
  have targeting : ∀ e ∈ (flag.targeting.map fun tree => ("targeting", tree)).toList,
      e.2.sorted = e.2 := by
    intro e he
    obtain ⟨tree, htree, rfl⟩ := Option.map_eq_some_iff.1 (Option.mem_toList.1 he)
    exact (inOrder.targeting tree htree).1
  rw [toJson_eq]
  refine sorted_object ?_
  simp only [members, List.forall_mem_append, List.forall_mem_cons, List.not_mem_nil, false_imp_iff,
    implies_true, and_true]
  exact ⟨⟨⟨rfl, rfl, inOrder.variants, rfl⟩, targeting⟩, inOrder.metadata⟩

/-- A definition that was read is read again, as it was, from the tree that it is written as, in the
order of the fields and in the order of the names. So writing it once more gives the same tree. -/
theorem ofJson_toJson {key : String} {tree : Json} {flag : FlagDefinition}
    (h : ofJson key tree = .ok flag) :
    ofJson key flag.toJson = .ok flag ∧ ofJson key flag.toJson.sorted = .ok flag ∧
      (ofJson key flag.toJson.sorted).map toJson = .ok flag.toJson := by
  have wellFormed := wellFormed_of_ofJson h
  have inOrder := inOrder_of_ofJson h
  have again {ms : Entries Json} (written : flag.entry.Written ms) :
      ofJson key (.object ms) = .ok flag :=
    ofJson_eq_ok.2 ⟨wellFormed.key_ne, flag.entry, written.ofTree inOrder, wellFormed.ofEntry⟩
  have bySort : ofJson key flag.toJson.sorted = .ok flag := by
    rw [sorted_toJson inOrder]
    exact again flag.written_members.sort
  exact ⟨again flag.written_members, bySort, by rw [bySort]; rfl⟩

/-- The tree of a flag with an integer beyond the signed range, and with a zero that has a sign
inside a structure. -/
def extremeTree : Json :=
  .object [("defaultVariant", "on"), ("state", "ENABLED"),
    ("targeting", .object [("fractional", .array [])]),
    ("variants", .object [("large", .number (.integer 0x8000000000000000 (by decide))),
      ("on", .object [("zeros", .array [.number (.double ⟨Binary64.signedZero true, by decide⟩),
        .null])])])]

/-- The definition of the flag: the large integer is a double. -/
def extreme : FlagDefinition where
  key := "f"
  state := .enabled
  variants := ⟨[("large", .double (Number.integer 0x8000000000000000 (by decide)).toDouble),
    ("on", .struct [("zeros", .array [.number (.double ⟨Binary64.signedZero true, by decide⟩),
      .null])])], by decide⟩
  defaultVariant := "on"
  targeting := some (.object [("fractional", .array [])])
  metadata := ∅

/-- The large integer stays a double, the zero keeps its sign and the targeting its form. -/
theorem ofJson_toJson_extreme :
    ofJson "f" extremeTree = .ok extreme ∧ ofJson "f" extreme.toJson.sorted = .ok extreme := by
  have read : ofJson "f" extremeTree = .ok extreme := rfl
  exact ⟨read, (ofJson_toJson read).2.1⟩

end FlagDefinition

end FeatureFlags
