import FeatureFlags.Proofs.Flag.Acceptance

/-!
# The form of accepted documents

A document is to be an object with an object of flags, each of them an object with a known state,
variants and a default among them (`Json.Document.IsDocumented`). A text that is accepted holds all
of this (`FlagSet.form_of_parse`), but the document and each flag may also be written as an array
that holds the parts in the order of the fields, without their names
(`FlagSet.accepts_arrays`).
-/

namespace FeatureFlags

open Json Outcome

namespace Json

/-- A flag in its documented form. -/
def IsDocumentedFlag (tree : Json) : Prop :=
  ∃ (ms variants : Entries Json) (default : String), tree = .object ms ∧
    (ms.get? "state" = some (.string "ENABLED") ∨ ms.get? "state" = some (.string "DISABLED")) ∧
    ms.get? "variants" = some (.object variants) ∧ variants ≠ [] ∧
    ms.get? "defaultVariant" = some (.string default) ∧ default ∈ variants.map (·.1)

namespace Document

/-- The flags of a document, which stand under their name in an object and first in an array. -/
def flags? (document : Document) : Option (Entries Json) := do
  let x ← document.root.part? DocumentParts.record.names "flags"
  let tree ← (x.json (.text 126)).toOption
  tree.toMembers?

/-- Nothing is at fault in a document, and nothing follows it. -/
def IsWellFormed (document : Document) : Prop :=
  document.root.skip = .ok () ∧ document.trailing = false

/-- A document that is an object. -/
def IsObject (document : Document) : Prop :=
  ∃ members close, document.root = .object members close

/-- A document in its documented form. -/
def IsDocumented (document : Document) : Prop :=
  document.IsWellFormed ∧ document.IsObject ∧
    ∃ flags, document.flags? = some flags ∧ ∀ e ∈ flags, e.2.IsDocumentedFlag

end Document

end Json

theorem FlagDefinition.Admissible.isDocumentedFlag {key : String} {ms : Entries Json}
    (h : Admissible key ms.get?) : (Json.object ms).IsDocumentedFlag := by
  obtain ⟨variants, default, hvariants, hempty, -, hdefault, hmem⟩ := h.variants
  exact ⟨ms, variants, default, rfl, h.state, hvariants, hempty, hdefault, hmem⟩

namespace FlagSet

/-- What is read of an accepted text. -/
theorem flags_of_parse {text : String} {set : FlagSet} (h : FlagSet.parse text = .ok set) :
    ∃ parts flags, DocumentParts.ofText text = .ok parts ∧ parts.flags = some flags ∧
      DocumentParts.flagsOf flags = .ok set.flags := by
  obtain ⟨parts, hparts, h⟩ := bind_eq_ok.1 h
  split at h
  · rename_i flags hflags
    obtain ⟨fs, hfs, h⟩ := bind_eq_ok.1 h
    have hset : set.flags = fs := by
      split at h
      all_goals
        obtain ⟨ms, -, h⟩ := bind_eq_ok.1 h
        cases h
        rfl
    exact ⟨parts, flags, hparts, hflags, by rw [hset, hfs]⟩
  · cases h

/-- An accepted text is a well-formed document with flags that are admissible. It has the documented
form exactly if it is an object and its flags are objects. -/
theorem form_of_parse {text : String} {set : FlagSet} (h : FlagSet.parse text = .ok set) :
    (Document.ofText text).IsWellFormed ∧
      ∃ flags, (Document.ofText text).flags? = some flags ∧
        (∀ e ∈ flags, FlagDefinition.Admissible e.1 (e.2.part? FlagEntry.record.names)) ∧
        ((Document.ofText text).IsDocumented ↔
          (Document.ofText text).IsObject ∧ ∀ e ∈ flags, ∃ ms, e.2 = .object ms) := by
  obtain ⟨parts, flags, hparts, hflags, hread⟩ := flags_of_parse h
  obtain ⟨hreader, htrailing⟩ := DocumentParts.ofText_eq_ok.1 hparts
  have wellFormed : (Document.ofText text).IsWellFormed :=
    ⟨Record.skip_of_reader DocumentParts.readable (legible_ofText text) hreader, htrailing⟩
  obtain ⟨-, hget, -⟩ | ⟨inside, x, y, hinside, hx, hy, hview⟩ :=
    Record.part_of_reader DocumentParts.part_flags DocumentParts.nodup_names hreader
  · cases hflags.symm.trans hget
  cases hinside
  have htree : y = .object flags := by
    rw [hflags] at hview
    exact toMembers?_eq_some.1 (DocumentParts.orNull_toMembers? hview).symm
  subst htree
  have hfound : (Document.ofText text).flags? = some flags :=
    Option.bind_eq_some_iff.2
      ⟨x, hx, Option.bind_eq_some_iff.2 ⟨.object flags, by rw [hy]; rfl, rfl⟩⟩
  have inOrder := Draft.sorted_of_json x hy
  have admissible : ∀ e ∈ flags,
      FlagDefinition.Admissible e.1 (e.2.part? FlagEntry.record.names) := by
    intro e he
    obtain ⟨flag, hflag⟩ := DocumentParts.exists_flagsOf_iff.1 ⟨_, hread⟩ e he
    exact (FlagDefinition.describes_of_ofJson (sorted_of_mem inOrder he) hflag).1
  refine ⟨wellFormed, flags, hfound, admissible, ?_, ?_⟩
  · rintro ⟨-, hobject, flags', hfound', documented⟩
    cases hfound.symm.trans hfound'
    refine ⟨hobject, fun e he => ?_⟩
    obtain ⟨ms, _, _, hms, -⟩ := documented e he
    exact ⟨ms, hms⟩
  · rintro ⟨hobject, hobjects⟩
    refine ⟨wellFormed, hobject, flags, hfound, fun e he => ?_⟩
    obtain ⟨ms, hms⟩ := hobjects e he
    have hadmissible := admissible e he
    rw [hms] at hadmissible ⊢
    exact hadmissible.isDocumentedFlag

/-- A document and its flag as arrays. -/
def arrays : String := "[\x7b\"a\":[\"ENABLED\",\x7b\"on\":true\x7d,\"on\"]\x7d]"

theorem form_of_parse_arrays :
    ∃ set, FlagSet.parse arrays = .ok set ∧
      ∃ flags, (Document.ofText arrays).flags? = some flags ∧
        ∀ e ∈ flags, FlagDefinition.Admissible e.1 (e.2.part? FlagEntry.record.names) := by
  obtain ⟨set, hset⟩ := exists_of_isOk (show (FlagSet.parse arrays).isOk = true by decide +kernel)
  obtain ⟨-, flags, hflags, admissible, -⟩ := form_of_parse hset
  exact ⟨set, hset, flags, hflags, admissible⟩

/-- A document that is an array of arrays is accepted, although it has not the documented form. -/
theorem accepts_arrays :
    (∃ set, FlagSet.parse arrays = .ok set) ∧ ¬(Document.ofText arrays).IsDocumented := by
  refine ⟨exists_of_isOk (by decide +kernel), ?_⟩
  rintro ⟨-, ⟨members, close, hroot⟩, -⟩
  have isArray : (Document.ofText arrays).root.found.toOption.map Found.text = some "sequence" := by
    decide +kernel
  rw [hroot] at isArray
  exact absurd (show some "map" = some "sequence" from isArray) (by decide)

end FlagSet

end FeatureFlags
