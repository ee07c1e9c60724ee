import FeatureFlags.Flag.Document
import FeatureFlags.Proofs.Checked
import FeatureFlags.Proofs.Flag.Values
import FeatureFlags.Proofs.Json.Records

/-!
# Which flags are admitted

A flag is given by its key and by the parts of its document, found under their names. `Admissible`
lists what the parts have to be, and `Describes` what a definition that is made of them holds: each
variant and each scalar of the metadata is the one that its tree `StandsFor`.

The definition of a flag in a tree describes its parts, and these are admissible
(`describes_of_ofJson`); an object whose members are admissible has a definition
(`exists_ofJson`). If there is none, the error names the key (`names_of_ofJson`).
-/

namespace FeatureFlags

open Outcome

/-! ## Variants and metadata -/

theorem FlagDefinition.variantsOf_eq (members : Entries Json) :
    variantsOf members = members.checked FlagValue.ofJson? := by
  unfold variantsOf Entries.checked
  congr
  funext ⟨name, x⟩
  dsimp only
  cases FlagValue.ofJson? x <;> rfl

theorem Metadata.ofMembers_eq (members : Entries Json) :
    ofMembers members = members.checked MetadataValue.ofJson? := by
  unfold ofMembers Entries.checked
  congr
  funext ⟨name, x⟩
  dsimp only
  cases MetadataValue.ofJson? x <;> rfl

/-! ## The parts of a flag -/

/-- The member of an object. -/
def Json.member? (tree : Json) (name : String) : Option Json :=
  tree.toMembers?.bind (Entries.get? · name)

/-- A truth value, text or number. -/
def Json.IsScalar : Json → Prop
  | .bool _ | .string _ | .number _ => True
  | _ => False

theorem MetadataValue.isSome_ofJson? (x : Json) : (ofJson? x).isSome = true ↔ x.IsScalar := by
  cases x <;> simp [ofJson?, Json.IsScalar]

/-- A tree that a variant can hold: neither an array nor `null`. -/
def Json.IsValue : Json → Prop
  | .array _ | .null => False
  | _ => True

theorem FlagValue.isSome_ofJson? (x : Json) : (ofJson? x).isSome = true ↔ x.IsValue := by
  cases x <;> simp [ofJson?, Json.IsValue]

namespace FlagEntry

open Json Reader

theorem views_membersReader : Views membersReader toMembers? := views_members

theorem nodup_names : record.names.Nodup := by decide

theorem part_state : record.Part "state" toString? state where
  mem := by decide
  fields := by
    simp only [record, List.forall_mem_cons]
    refine ⟨.inl ⟨rfl, Field.puts views_string ?_ _ _⟩, .inr ⟨?_, Field.keeps ?_ _ _⟩,
      .inr ⟨?_, Field.keeps ?_ _ _⟩, .inr ⟨?_, Field.keeps ?_ _ _⟩, .inr ⟨?_, Field.keeps ?_ _ _⟩,
      by simp⟩
    all_goals first | exact fun _ _ => rfl | decide

theorem part_variants : record.Part "variants" toMembers? variants where
  mem := by decide
  fields := by
    simp only [record, List.forall_mem_cons]
    refine ⟨.inr ⟨?_, Field.keeps ?_ _ _⟩, .inl ⟨rfl, Field.puts views_membersReader ?_ _ _⟩,
      .inr ⟨?_, Field.keeps ?_ _ _⟩, .inr ⟨?_, Field.keeps ?_ _ _⟩, .inr ⟨?_, Field.keeps ?_ _ _⟩,
      by simp⟩
    all_goals first | exact fun _ _ => rfl | decide

theorem part_defaultVariant : record.Part "defaultVariant" toString? defaultVariant where
  mem := by decide
  fields := by
    simp only [record, List.forall_mem_cons]
    refine ⟨.inr ⟨?_, Field.keeps ?_ _ _⟩, .inr ⟨?_, Field.keeps ?_ _ _⟩,
      .inl ⟨rfl, Field.puts views_string ?_ _ _⟩, .inr ⟨?_, Field.keeps ?_ _ _⟩,
      .inr ⟨?_, Field.keeps ?_ _ _⟩, by simp⟩
    all_goals first | exact fun _ _ => rfl | decide

theorem part_targeting : record.Part "targeting" (orNull some) targeting where
  mem := by decide
  fields := by
    simp only [record, List.forall_mem_cons]
    refine ⟨.inr ⟨?_, Field.keeps ?_ _ _⟩, .inr ⟨?_, Field.keeps ?_ _ _⟩,
      .inr ⟨?_, Field.keeps ?_ _ _⟩, .inl ⟨rfl, Field.puts views_json.optional ?_ _ _⟩,
      .inr ⟨?_, Field.keeps ?_ _ _⟩, by simp⟩
    all_goals first | exact fun _ _ => rfl | decide

theorem part_metadata : record.Part "metadata" toMembers? metadata where
  mem := by decide
  fields := by
    simp only [record, List.forall_mem_cons]
    refine ⟨.inr ⟨?_, Field.keeps ?_ _ _⟩, .inr ⟨?_, Field.keeps ?_ _ _⟩,
      .inr ⟨?_, Field.keeps ?_ _ _⟩, .inr ⟨?_, Field.keeps ?_ _ _⟩,
      .inl ⟨rfl, Field.puts views_membersReader ?_ _ _⟩, by simp⟩
    all_goals first | exact fun _ _ => rfl | decide

/-- A value that may be `null` is the tree unless that is `null`. -/
theorem orNull_some {y : Json} {value : Option Json} (h : orNull some y = some value)
    (tree : Json) : value = some tree ↔ y = tree ∧ tree ≠ .null := by
  cases y with
  | null =>
    cases h
    exact ⟨fun h => (by cases h), fun h => absurd h.1.symm h.2⟩
  | _ =>
    cases h
    rw [Option.some.injEq]
    exact ⟨fun h => ⟨h, fun hnull => (by cases h.trans hnull)⟩, And.left⟩

/-- What an entry holds of the parts of a flag. -/
structure Holds (entry : FlagEntry) (part : String → Option Json) : Prop where
  state : part "state" = some (.string entry.state)
  variants : part "variants" = some (.object entry.variants)
  defaultVariant : part "defaultVariant" = some (.string entry.defaultVariant)
  targeting : ∀ tree, entry.targeting = some tree ↔ part "targeting" = some tree ∧ tree ≠ .null
  metadata : part "metadata" = some (.object entry.metadata) ∨
    part "metadata" = none ∧ entry.metadata = []

/-- An entry holds the parts of the tree that it is read from. -/
theorem holds_of_ofTree {tree : Json} (inOrder : tree.sorted = tree) {entry : FlagEntry}
    (h : (record.reader {}).ofTree tree = .ok entry) : entry.Holds (tree.part? record.names) where
  state := by
    obtain ⟨y, hy, hview⟩ := Record.required_of_ofTree part_state nodup_names
      List.mem_cons_self rfl rfl inOrder h
    exact toString?_eq_some.1 hview ▸ hy
  variants := by
    obtain ⟨y, hy, hview⟩ := Record.required_of_ofTree part_variants nodup_names
      (List.mem_cons_of_mem _ List.mem_cons_self) rfl rfl inOrder h
    exact toMembers?_eq_some.1 hview ▸ hy
  defaultVariant := by
    obtain ⟨y, hy, hview⟩ := Record.required_of_ofTree part_defaultVariant nodup_names
      (List.mem_cons_of_mem _ (List.mem_cons_of_mem _ List.mem_cons_self)) rfl rfl inOrder h
    exact toString?_eq_some.1 hview ▸ hy
  targeting := fun rule => by
    obtain ⟨hnone, hget, -⟩ | ⟨y, hy, hview⟩ :=
      Record.part_of_ofTree part_targeting nodup_names inOrder h
    · rw [hget, hnone]
      simp
    · rw [hy, Option.some.injEq]
      exact orNull_some hview rule
  metadata := by
    obtain ⟨hnone, hget, -⟩ | ⟨y, hy, hview⟩ :=
      Record.part_of_ofTree part_metadata nodup_names inOrder h
    · exact .inr ⟨hnone, hget⟩
    · exact .inl (toMembers?_eq_some.1 hview ▸ hy)

/-- An entry is read from an object with its parts. -/
theorem exists_ofTree {ms : Entries Json} (inOrder : (Json.object ms).sorted = .object ms)
    {state default : String} {variants : Entries Json}
    (hstate : ms.get? "state" = some (.string state))
    (hvariants : ms.get? "variants" = some (.object variants))
    (hdefault : ms.get? "defaultVariant" = some (.string default))
    (hmetadata : ∀ x, ms.get? "metadata" = some x → ∃ metadata, x = .object metadata) :
    ∃ entry, (record.reader {}).ofTree (.object ms) = .ok entry := by
  refine Record.exists_ofTree rfl inOrder ?_
  have targeting (y : Json) : ∃ value, orNull some y = some value := by
    cases y <;> exact ⟨_, rfl⟩
  simp only [record, List.forall_mem_cons]
  refine ⟨⟨fun _ => ?_, fun y hy => ?_⟩, ⟨fun _ => ?_, fun y hy => ?_⟩,
    ⟨fun _ => ?_, fun y hy => ?_⟩, ⟨fun h => (by cases h), fun y hy => ?_⟩,
    ⟨fun h => (by cases h), fun y hy => ?_⟩, by simp⟩
  · exact Option.isSome_iff_exists.2 ⟨_, hstate⟩
  · cases hstate.symm.trans hy
    exact Field.accepts views_string rfl _ _ _
  · exact Option.isSome_iff_exists.2 ⟨_, hvariants⟩
  · cases hvariants.symm.trans hy
    exact Field.accepts views_membersReader rfl _ _ _
  · exact Option.isSome_iff_exists.2 ⟨_, hdefault⟩
  · cases hdefault.symm.trans hy
    exact Field.accepts views_string rfl _ _ _
  · obtain ⟨value, hvalue⟩ := targeting y
    exact Field.accepts views_json.optional hvalue _ _ _
  · obtain ⟨metadata, rfl⟩ := hmetadata y hy
    exact Field.accepts views_membersReader rfl _ _ _

end FlagEntry

/-! ## Definitions -/

/-- An error about the flag with the given key. -/
def DocumentError.Names (key : String) : DocumentError → Prop
  | emptyKey => key = ""
  | invalidFlag name _ => name = key ∧ key ≠ ""
  | _ => False

theorem FlagState.ofName?_eq_some {s : String} {state : FlagState} :
    Named.ofName? s = some state ↔ s = Named.name state := by
  have table : Named.ofName? s =
      if s = "ENABLED" then some enabled else if s = "DISABLED" then some disabled else none := by
    simp only [Named.ofName?, Named.table, Named.all, Named.name, List.map_cons, List.map_nil,
      List.lookup_cons, List.lookup_nil]
    split <;> rename_i h
    · simp [beq_iff_eq.1 h]
    · rw [if_neg (beq_eq_false_iff_ne.1 h)]
      split <;> rename_i h'
      · simp [beq_iff_eq.1 h']
      · rw [if_neg (beq_eq_false_iff_ne.1 h')]
  rw [table]
  cases state <;> simp only [Named.name] <;> split <;> simp_all

namespace FlagDefinition

open Json (StandsFor StandsForScalar)

theorem effectiveTargeting_eq_some {targeting : Option Json} {tree : Json} :
    effectiveTargeting targeting = some tree ↔
      targeting = some tree ∧ tree ≠ .null ∧ tree ≠ .object [] := by
  constructor
  · intro h
    unfold effectiveTargeting at h
    split at h
    · cases h
    · cases h
    · cases h
    · rename_i hnull hempty
      cases h
      exact ⟨rfl, fun h => hnull (h ▸ rfl), fun h => hempty (h ▸ rfl)⟩
  · rintro ⟨rfl, hnull, hempty⟩
    unfold effectiveTargeting
    split <;> simp_all

/-- A definition is made of a known state, variants that all have a value, a default among them and
metadata that are all scalars. -/
theorem ofEntry_eq_ok {key : String} {entry : FlagEntry} {flag : FlagDefinition} :
    ofEntry key entry = .ok flag ↔
      entry.state = Named.name flag.state ∧ entry.variants ≠ [] ∧
        entry.variants.checked FlagValue.ofJson? = .ok flag.variants ∧
        flag.variants.contains entry.defaultVariant = true ∧
        entry.metadata.checked MetadataValue.ofJson? = .ok flag.metadata ∧
        flag.key = key ∧ flag.defaultVariant = entry.defaultVariant ∧
        flag.targeting = effectiveTargeting entry.targeting := by
  unfold ofEntry
  rw [variantsOf_eq, Metadata.ofMembers_eq]
  constructor
  · intro h
    split at h
    · rename_i state hstate
      split at h
      · cases h
      rename_i hempty
      obtain ⟨variants, hvariants, h⟩ := bind_eq_ok.1 h
      split at h
      · cases h
      rename_i hdefault
      obtain ⟨metadata, hmetadata, h⟩ := bind_eq_ok.1 h
      cases h
      exact ⟨FlagState.ofName?_eq_some.1 hstate, by simpa using hempty, mapError_eq_ok.1 hvariants,
        by simpa using hdefault, mapError_eq_ok.1 hmetadata, rfl, rfl, rfl⟩
    · cases h
  · rintro ⟨hstate, hempty, hvariants, hdefault, hmetadata, rfl, hname, htargeting⟩
    rw [FlagState.ofName?_eq_some.2 hstate]
    dsimp only
    rw [if_neg (by simpa using hempty)]
    refine bind_eq_ok.2 ⟨_, mapError_eq_ok.2 hvariants, ?_⟩
    rw [if_neg (by simpa using hdefault)]
    refine bind_eq_ok.2 ⟨_, mapError_eq_ok.2 hmetadata, ?_⟩
    rw [← hname, ← htargeting]
    rfl

/-- What the key and the parts of a flag have to be. -/
structure Admissible (key : String) (part : String → Option Json) : Prop where
  key : key ≠ ""
  state : part "state" = some (.string "ENABLED") ∨ part "state" = some (.string "DISABLED")
  variants : ∃ (variants : Entries Json) (default : String),
    part "variants" = some (.object variants) ∧ variants ≠ [] ∧ (∀ e ∈ variants, e.2.IsValue) ∧
    part "defaultVariant" = some (.string default) ∧ default ∈ variants.map (·.1)
  metadata : ∀ x, part "metadata" = some x →
    ∃ metadata, x = .object metadata ∧ ∀ e ∈ metadata, e.2.IsScalar

/-- What the definition holds of the key and the parts of a flag. -/
structure Describes (key : String) (part : String → Option Json) (flag : FlagDefinition) :
    Prop where
  key : flag.key = key
  enabled_iff : flag.state = .enabled ↔ part "state" = some (.string "ENABLED")
  disabled_iff : flag.state = .disabled ↔ part "state" = some (.string "DISABLED")
  variants : ∃ variants : Entries Json, part "variants" = some (.object variants) ∧
    ∀ name, Option.Rel StandsFor (variants.get? name) (flag.variants.get? name)
  defaultVariant : part "defaultVariant" = some (.string flag.defaultVariant)
  targeting : ∀ tree, flag.targeting = some tree ↔
    part "targeting" = some tree ∧ tree ≠ .null ∧ tree ≠ .object []
  metadata : ∃ metadata : Entries Json,
    (part "metadata" = some (.object metadata) ∨ part "metadata" = none ∧ metadata = []) ∧
    ∀ name, Option.Rel StandsForScalar (metadata.get? name) (flag.metadata.get? name)

theorem ofJson_eq_ok {key : String} {tree : Json} {flag : FlagDefinition} :
    ofJson key tree = .ok flag ↔ key ≠ "" ∧
      ∃ entry, (FlagEntry.record.reader {}).ofTree tree = .ok entry ∧
        ofEntry key entry = .ok flag := by
  unfold ofJson
  by_cases hkey : key = ""
  · subst hkey
    refine ⟨fun h => (by cases h), fun h => absurd rfl h.1⟩
  · have hne : key.isEmpty = false := by simpa using hkey
    simp only [hne, Bool.false_eq_true, if_false]
    constructor
    · intro h
      obtain ⟨entry, hentry, hflag⟩ := bind_eq_ok.1 h
      exact ⟨hkey, entry, mapError_eq_ok.1 hentry, mapError_eq_ok.1 hflag⟩
    · rintro ⟨-, entry, hentry, hflag⟩
      exact bind_eq_ok.2 ⟨entry, mapError_eq_ok.2 hentry, mapError_eq_ok.2 hflag⟩

/-- The error of a flag without a definition names the key. -/
theorem names_of_ofJson {key : String} {tree : Json} {error : DocumentError}
    (h : ofJson key tree = .error error) : error.Names key := by
  unfold ofJson at h
  by_cases hkey : key = ""
  · subst hkey
    cases h
    rfl
  · have hne : key.isEmpty = false := by simpa using hkey
    simp only [hne, Bool.false_eq_true, if_false] at h
    obtain hread | ⟨entry, -, hcheck⟩ := bind_eq_error.1 h
    · obtain ⟨_, -, rfl⟩ := mapError_eq_error.1 hread
      exact ⟨rfl, hkey⟩
    · obtain ⟨_, -, rfl⟩ := mapError_eq_error.1 hcheck
      exact ⟨rfl, hkey⟩

variable {key : String}

/-- The definition of a flag in a tree describes its parts, which are admissible. -/
theorem describes_of_ofJson {tree : Json} (inOrder : tree.sorted = tree) {flag : FlagDefinition}
    (h : ofJson key tree = .ok flag) :
    Admissible key (tree.part? FlagEntry.record.names) ∧
      Describes key (tree.part? FlagEntry.record.names) flag := by
  obtain ⟨hkey, entry, hread, hentry⟩ := ofJson_eq_ok.1 h
  have holds := FlagEntry.holds_of_ofTree inOrder hread
  obtain ⟨hstate, hempty, hvariants, hdefault, hmetadata, hflag, hname, htargeting⟩ :=
    ofEntry_eq_ok.1 hentry
  have variantsInOrder :=
    (Json.members_of_sorted (Json.sorted_of_part? inOrder holds.variants)).1
  have variant := Entries.get?_of_checked variantsInOrder hvariants
  have values := Entries.exists_checked_iff.1 ⟨_, hvariants⟩
  have scalars := Entries.exists_checked_iff.1 ⟨_, hmetadata⟩
  constructor
  · refine ⟨hkey, ?_, ⟨entry.variants, entry.defaultVariant, holds.variants, hempty,
      fun e he => (FlagValue.isSome_ofJson? _).1 (values e he), holds.defaultVariant, ?_⟩, ?_⟩
    · rw [holds.state, hstate]
      cases flag.state
      · exact .inl rfl
      · exact .inr rfl
    · obtain ⟨value, hvalue⟩ := Option.isSome_iff_exists.1 hdefault
      obtain ⟨x, hx, -⟩ := rel_some_right.1 (hvalue ▸ variant entry.defaultVariant)
      exact Entries.mem_keys_iff.2 (by rw [hx]; rfl)
    · intro x hx
      obtain hmeta | ⟨hnone, -⟩ := holds.metadata
      · cases hmeta.symm.trans hx
        exact ⟨_, rfl, fun e he => (MetadataValue.isSome_ofJson? _).1 (scalars e he)⟩
      · cases hnone.symm.trans hx
  · refine ⟨hflag, ?_, ?_, ⟨entry.variants, holds.variants, ?_⟩,
      by rw [holds.defaultVariant, hname], fun rule => ?_, entry.metadata, holds.metadata, ?_⟩
    · rw [holds.state, hstate]
      cases flag.state <;> simp [Named.name]
    · rw [holds.state, hstate]
      cases flag.state <;> simp [Named.name]
    · simpa only [FlagValue.ofJson?_eq_some] using variant
    · rw [htargeting, effectiveTargeting_eq_some, holds.targeting]
      tauto
    · have metadataInOrder : entry.metadata.Sorted := by
        obtain hmeta | ⟨-, hnil⟩ := holds.metadata
        · exact (Json.members_of_sorted (Json.sorted_of_part? inOrder hmeta)).1
        · rw [hnil]
          exact .nil
      simpa only [MetadataValue.ofJson?_eq_some] using
        Entries.get?_of_checked metadataInOrder hmetadata

/-- An object whose members are admissible has a definition. -/
theorem exists_ofJson {ms : Entries Json} (inOrder : (Json.object ms).sorted = .object ms)
    (h : Admissible key ms.get?) : ∃ flag, ofJson key (.object ms) = .ok flag := by
  obtain ⟨hkey, hstate, ⟨variants, default, hvariants, hempty, values, hdefault, hmem⟩, hmeta⟩ := h
  obtain ⟨state, hstate⟩ : ∃ state : FlagState,
      ms.get? "state" = some (.string (Named.name state)) :=
    hstate.elim (fun h => ⟨.enabled, h⟩) fun h => ⟨.disabled, h⟩
  obtain ⟨entry, hread⟩ := FlagEntry.exists_ofTree inOrder hstate hvariants hdefault
    fun x hx => (hmeta x hx).imp fun _ => And.left
  have holds := FlagEntry.holds_of_ofTree inOrder hread
  have sameState : entry.state = Named.name state := by
    simpa using holds.state.symm.trans hstate
  have sameVariants : entry.variants = variants := by
    simpa using holds.variants.symm.trans hvariants
  have sameDefault : entry.defaultVariant = default := by
    simpa using holds.defaultVariant.symm.trans hdefault
  have scalars : ∀ e ∈ entry.metadata, e.2.IsScalar := by
    obtain hmetadata | ⟨-, hnil⟩ := holds.metadata
    · obtain ⟨_, heq, scalars⟩ := hmeta _ hmetadata
      cases heq
      exact scalars
    · simp [hnil]
  obtain ⟨checkedVariants, hvalues⟩ := Entries.exists_checked_iff.2 fun e he =>
    (FlagValue.isSome_ofJson? _).2 (values e he)
  obtain ⟨checkedMetadata, hscalars⟩ := Entries.exists_checked_iff.2 fun e he =>
    (MetadataValue.isSome_ofJson? _).2 (scalars e he)
  have hcontains : checkedVariants.contains default = true := by
    have variantsInOrder : variants.Sorted :=
      (Json.members_of_sorted (Json.sorted_of_mem inOrder (Entries.mem_of_get? hvariants))).1
    obtain ⟨x, hx⟩ := Option.isSome_iff_exists.1 (Entries.mem_keys_iff.1 hmem)
    have found := Entries.get?_of_checked variantsInOrder hvalues default
    rw [hx] at found
    obtain ⟨value, hvalue, -⟩ := rel_some_left.1 found
    exact Option.isSome_iff_exists.2 ⟨value, hvalue⟩
  refine ⟨⟨key, state, checkedVariants, default, effectiveTargeting entry.targeting,
    checkedMetadata⟩, ofJson_eq_ok.2 ⟨hkey, entry, hread, ofEntry_eq_ok.2 ?_⟩⟩
  rw [sameState, sameVariants, sameDefault]
  exact ⟨rfl, hempty, hvalues, hcontains, hscalars, rfl, rfl, rfl⟩

/-- An object has a definition exactly if its members are admissible. -/
theorem exists_ofJson_iff {tree : Json} (inOrder : tree.sorted = tree)
    (hobject : ∃ ms, tree = .object ms) :
    (∃ flag, ofJson key tree = .ok flag) ↔ Admissible key tree.member? := by
  obtain ⟨ms, rfl⟩ := hobject
  exact ⟨fun ⟨_, hflag⟩ => (describes_of_ofJson inOrder hflag).1, exists_ofJson inOrder⟩

end FlagDefinition

end FeatureFlags
