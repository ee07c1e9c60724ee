import FeatureFlags.Proofs.Flag.Admission
import FeatureFlags.Proofs.Json.Rendering
import FeatureFlags.Proofs.Text.Utf8

/-!
# Which documents are accepted

A text that is an object, with an object of flags that are objects, is accepted exactly if every
flag is admissible and the metadata are scalars (`FlagSet.parse_objects`). Then the set has the keys
of the document, and each of its flags describes the one that stands under its key. Otherwise the
error is that of the flag with the smallest key among those that are not admissible, and an error
about the metadata says that all flags are.

A set is made in two steps: the text is read as the parts of a document (`DocumentParts`), and then
the flags are checked one by one in the order of their keys.
-/

namespace FeatureFlags

open Json Outcome

/-! ## The parts of a document -/

namespace DocumentParts

open Reader

theorem nodup_names : record.names.Nodup := by decide

theorem views_members? : Views (optional FlagEntry.membersReader) (orNull toMembers?) :=
  FlagEntry.views_membersReader.optional

theorem orNull_toMembers? {y : Json} {value : Option (Entries Json)}
    (h : orNull toMembers? y = some value) : value = y.toMembers? := by
  cases y <;> cases h <;> rfl

theorem eachItem_strings (keys : List String) :
    eachItem toString? (.array (keys.map .string)) = some keys := by
  change (keys.map Json.string).mapM toString? = some keys
  induction keys with
  | nil => rfl
  | cons key keys ih => simp [List.mapM_cons, ih, toString?]

theorem part_flags : record.Part "flags" (orNull toMembers?) flags where
  mem := by decide
  fields := by
    simp only [record, List.forall_mem_cons]
    refine ⟨.inl ⟨rfl, Field.puts views_members? ?_ _ _⟩, .inr ⟨?_, Field.keeps ?_ _ _⟩,
      .inr ⟨?_, Field.keeps ?_ _ _⟩, by simp⟩
    all_goals first | exact fun _ _ => rfl | decide

theorem part_metadata : record.Part "metadata" (orNull toMembers?) metadata where
  mem := by decide
  fields := by
    simp only [record, List.forall_mem_cons]
    refine ⟨.inr ⟨?_, Field.keeps ?_ _ _⟩, .inl ⟨rfl, Field.puts views_members? ?_ _ _⟩,
      .inr ⟨?_, Field.keeps ?_ _ _⟩, by simp⟩
    all_goals first | exact fun _ _ => rfl | decide

theorem readable : record.Readable := by
  simp only [Record.Readable, record, List.forall_mem_cons]
  exact ⟨Field.readable views_members? _ _ _, Field.readable views_members? _ _ _,
    Field.readable views_string.list _ _ _, by simp⟩

theorem ofText_eq_ok {text : String} {parts : DocumentParts} :
    ofText text = .ok parts ↔
      record.reader {} .whole (Document.ofText text).root = .ok parts ∧
        (Document.ofText text).trailing = false := by
  unfold ofText
  rw [mapError_eq_ok, Reader.ofText_eq_ok]

variable {flags : Entries Json}

/-- A flag of an object under its key. -/
def entryOf (e : String × Json) : Except DocumentError (String × FlagDefinition) := do
  let flag ← FlagDefinition.ofJson e.1 e.2
  return (e.1, flag)

theorem flagsOf_eq (flags : Entries Json) :
    flagsOf flags = flags.mapM entryOf >>= fun entries => .ok (.ofEntries entries) := rfl

theorem entryOf_eq_ok {e : String × Json} {b : String × FlagDefinition} :
    entryOf e = .ok b ↔ e.1 = b.1 ∧ FlagDefinition.ofJson e.1 e.2 = .ok b.2 := by
  obtain ⟨key, flag⟩ := b
  simp only [entryOf, bind_eq_ok, pure, Except.pure, Except.ok.injEq, Prod.mk.injEq]
  constructor
  · rintro ⟨_, hflag, hkey, rfl⟩
    exact ⟨hkey, hflag⟩
  · rintro ⟨hkey, hflag⟩
    exact ⟨flag, hflag, hkey, rfl⟩

theorem exists_entryOf_iff {e : String × Json} :
    (∃ b, entryOf e = .ok b) ↔ ∃ flag, FlagDefinition.ofJson e.1 e.2 = .ok flag := by
  constructor
  · rintro ⟨b, hb⟩
    exact ⟨b.2, (entryOf_eq_ok.1 hb).2⟩
  · rintro ⟨flag, hflag⟩
    exact ⟨(e.1, flag), entryOf_eq_ok.2 ⟨rfl, hflag⟩⟩

/-- The flags of an object are read if each of them is. -/
theorem exists_flagsOf_iff : (∃ d, flagsOf flags = .ok d) ↔
    ∀ e ∈ flags, ∃ flag, FlagDefinition.ofJson e.1 e.2 = .ok flag := by
  simp only [flagsOf_eq, ← exists_entryOf_iff, ← exists_mapM_iff, bind_eq_ok]
  exact ⟨fun ⟨_, entries, h, _⟩ => ⟨entries, h⟩, fun ⟨entries, h⟩ => ⟨_, entries, h, rfl⟩⟩

/-- Each flag that is read is the one that stands under its key. -/
theorem get?_of_flagsOf (inOrder : flags.Sorted) {d : Dict FlagDefinition}
    (h : flagsOf flags = .ok d) (key : String) :
    Option.Rel (fun tree flag => FlagDefinition.ofJson key tree = .ok flag) (flags.get? key)
      (d.get? key) := by
  obtain ⟨entries, hentries, hd⟩ := bind_eq_ok.1 h
  cases hd
  have related := (Entries.mapM_eq_ok_iff_related (f := entryOf)
    (R := fun key tree flag => FlagDefinition.ofJson key tree = .ok flag)
    fun _ _ => entryOf_eq_ok).1 hentries
  exact related.ofEntries inOrder key

/-- The error is that of the first flag that cannot be read. -/
theorem flagsOf_eq_error (inOrder : flags.Sorted) {error : DocumentError}
    (h : flagsOf flags = .error error) :
    ∃ key tree, (key, tree) ∈ flags ∧ FlagDefinition.ofJson key tree = .error error ∧
      ∀ e ∈ flags, e.1 < key → ∃ flag, FlagDefinition.ofJson e.1 e.2 = .ok flag := by
  rw [flagsOf_eq] at h
  obtain hmap | ⟨_, _, hpure⟩ := bind_eq_error.1 h
  · obtain ⟨before, ⟨key, tree⟩, after, rfl, hbefore, herror⟩ := mapM_eq_error.1 hmap
    obtain herror | ⟨_, _, hpure⟩ := bind_eq_error.1 herror
    · refine ⟨key, tree, by simp, herror, fun e he hlt => ?_⟩
      obtain he | he := List.mem_append.1 he
      · exact exists_entryOf_iff.1 (hbefore e he)
      · -- From the flag on, no key is smaller.
        obtain rfl | he := List.mem_cons.1 he
        · exact absurd hlt (String.lt_irrefl key)
        · have later := (List.pairwise_cons.1 (List.pairwise_append.1 inOrder).2.1).1 e he
          exact absurd hlt (String.lt_asymm later)
    · cases hpure
  · cases hpure

/-! ## The metadata of an object -/

variable {metadata : Entries Json}

theorem metadataOf_eq_ok {d : Metadata} :
    metadataOf metadata = .ok d ↔ metadata.checked MetadataValue.ofJson? = .ok d := by
  rw [metadataOf, mapError_eq_ok, Metadata.ofMembers_eq]

theorem exists_metadataOf_iff :
    (∃ d, metadataOf metadata = .ok d) ↔ ∀ e ∈ metadata, e.2.IsScalar := by
  simp only [metadataOf_eq_ok, ← MetadataValue.isSome_ofJson?]
  exact Entries.exists_checked_iff

theorem metadataOf_eq_error {error : DocumentError} (h : metadataOf metadata = .error error) :
    ∃ e ∈ metadata, ¬e.2.IsScalar ∧ error = .structuredMetadata e.1 := by
  rw [metadataOf, Metadata.ofMembers_eq] at h
  obtain ⟨name, hname, rfl⟩ := mapError_eq_error.1 h
  obtain ⟨x, hmem, hnone⟩ := Entries.checked_eq_error hname
  refine ⟨(name, x), hmem, fun hscalar => ?_, rfl⟩
  rw [← MetadataValue.isSome_ofJson?, hnone] at hscalar
  cases hscalar

/-! ## Flags that are objects -/

section Objects

variable (inOrder : (Json.object flags).sorted = .object flags)
  (hobjects : ∀ e ∈ flags, ∃ ms, e.2 = .object ms)
include inOrder hobjects

theorem exists_ofJson_iff {e : String × Json} (he : e ∈ flags) :
    (∃ flag, FlagDefinition.ofJson e.1 e.2 = .ok flag) ↔
      FlagDefinition.Admissible e.1 e.2.member? :=
  FlagDefinition.exists_ofJson_iff (sorted_of_mem inOrder he) (hobjects e he)

theorem exists_flagsOf_iff_admissible : (∃ d, flagsOf flags = .ok d) ↔
    ∀ e ∈ flags, FlagDefinition.Admissible e.1 e.2.member? := by
  rw [exists_flagsOf_iff]
  exact forall₂_congr fun e he => exists_ofJson_iff inOrder hobjects he

/-- Each flag that is read describes the one that stands under its key. -/
theorem describes_of_flagsOf {d : Dict FlagDefinition} (h : flagsOf flags = .ok d) (key : String) :
    Option.Rel (fun tree flag => FlagDefinition.Describes key tree.member? flag) (flags.get? key)
      (d.get? key) := by
  have found := get?_of_flagsOf (members_of_sorted inOrder).1 h key
  cases hkey : flags.get? key with
  | none =>
    rw [hkey] at found
    rw [rel_none_left.1 found]
    exact .none
  | some tree =>
    rw [hkey] at found
    obtain ⟨flag, hflag, hread⟩ := rel_some_left.1 found
    rw [hflag]
    have he := Entries.mem_of_get? hkey
    obtain ⟨ms, rfl⟩ := hobjects _ he
    exact .some (FlagDefinition.describes_of_ofJson (sorted_of_mem inOrder he) hread).2

/-- The error is that of the flag with the smallest key of those that are not admissible. -/
theorem smallest_of_flagsOf {error : DocumentError} (h : flagsOf flags = .error error) :
    ∃ key tree, (key, tree) ∈ flags ∧ ¬FlagDefinition.Admissible key tree.member? ∧
      (∀ e ∈ flags, Utf8.encode e.1 < Utf8.encode key →
        FlagDefinition.Admissible e.1 e.2.member?) ∧
      FlagDefinition.ofJson key tree = .error error ∧ error.Names key := by
  obtain ⟨key, tree, hmem, herror, smaller⟩ := flagsOf_eq_error (members_of_sorted inOrder).1 h
  refine ⟨key, tree, hmem, fun hadmissible => ?_, fun e he hlt => ?_, herror,
    FlagDefinition.names_of_ofJson herror⟩
  · obtain ⟨flag, hflag⟩ := (exists_ofJson_iff inOrder hobjects hmem).2 hadmissible
    cases hflag.symm.trans herror
  · exact (exists_ofJson_iff inOrder hobjects he).1 (smaller e he (utf8_encode_lt.1 hlt))

end Objects

/-! ## Documents -/

/-- The parts of a text that is an object are those of its tree. -/
theorem parts_of_object {text : String} {members : Entries Json}
    (hroot : (Document.ofText text).root.json .whole = .ok (.object members))
    (once : ∀ name ∈ record.names, (Document.ofText text).root.occurrences name ≤ 1)
    {parts : DocumentParts} (h : ofText text = .ok parts) :
    parts.flags = (members.get? "flags").bind toMembers? ∧
      parts.metadata = (members.get? "metadata").bind toMembers? := by
  have hread := (ofText_eq_ok.1 h).1
  have part {name : String} {get : DocumentParts → Option (Entries Json)}
      (hpart : record.Part name (orNull toMembers?) get) (hinitial : get {} = none) :
      get parts = (members.get? name).bind toMembers? := by
    obtain ⟨hnone, hget⟩ | ⟨y, hy, hview⟩ :=
      Record.part_of_object hpart nodup_names (once _ hpart.mem) hroot hread
    · rw [hget, hnone, hinitial]
      rfl
    · rw [hy]
      exact orNull_toMembers? hview
  exact ⟨part part_flags rfl, part part_metadata rfl⟩

/-- A text that is an object is read if its fields are of the right kinds. -/
theorem exists_ofText {text : String} {members flags metadata : Entries Json}
    (hroot : Json.parse text = .ok (.object members))
    (once : ∀ name ∈ record.names, (Document.ofText text).root.occurrences name ≤ 1)
    (hflags : members.get? "flags" = some (.object flags))
    (hmetadata : members.get? "metadata" = some (.object metadata) ∨
      (members.get? "metadata" = none ∨ members.get? "metadata" = some .null) ∧ metadata = [])
    (hremoved : members.get? "removed" = none ∨
      ∃ keys : List String, members.get? "removed" = some (.array (keys.map .string))) :
    ∃ parts, ofText text = .ok parts := by
  obtain ⟨hread, htrailing⟩ := Reader.ofText_eq_ok.1 hroot
  have accepts : ∀ field ∈ record.fields, field.required = false ∧
      ∀ y, members.get? field.name = some y → field.Accepts y := by
    simp only [record, List.forall_mem_cons]
    refine ⟨⟨rfl, fun y hy => ?_⟩, ⟨rfl, fun y hy => ?_⟩, ⟨rfl, fun y hy => ?_⟩, by simp⟩
    · cases hflags.symm.trans hy
      exact Field.accepts views_members? rfl _ _ _
    · obtain hobject | ⟨hnone | hnull, -⟩ := hmetadata
      · cases hobject.symm.trans hy
        exact Field.accepts views_members? rfl _ _ _
      · cases hnone.symm.trans hy
      · cases hnull.symm.trans hy
        exact Field.accepts views_members? rfl _ _ _
    · obtain hnone | ⟨keys, hkeys⟩ := hremoved
      · cases hnone.symm.trans hy
      · cases hkeys.symm.trans hy
        exact Field.accepts views_string.list (eachItem_strings keys) _ _ _
  obtain ⟨parts, hparts⟩ := Record.exists_reader rfl (legible_ofText text) (faulty_eq_ok.1 hread)
    fun field hfield => ⟨once _ (List.mem_map.2 ⟨field, hfield, rfl⟩),
      fun h => by simp [(accepts field hfield).1] at h, (accepts field hfield).2⟩
  exact ⟨parts, ofText_eq_ok.2 ⟨hparts, htrailing⟩⟩

end DocumentParts

namespace FlagSet

/-- A set is made of the flags and the metadata of a document, the flags first. -/
theorem parse_eq {text : String} {parts : DocumentParts} {flags metadata : Entries Json}
    (h : DocumentParts.ofText text = .ok parts) (hflags : parts.flags = some flags)
    (hmetadata : parts.metadata = some metadata ∨ parts.metadata = none ∧ metadata = []) :
    FlagSet.parse text = (do
      let flags ← DocumentParts.flagsOf flags
      let metadata ← DocumentParts.metadataOf metadata
      return ⟨flags, metadata⟩) := by
  obtain ⟨_, _, removed⟩ := parts
  dsimp only at hflags hmetadata
  rw [parse, h, hflags]
  obtain rfl | ⟨rfl, rfl⟩ := hmetadata <;> rfl

theorem parse_eq_of_render {text : String} {tree : Json}
    (h : (Json.parse text).toOption.map Json.render = some tree.render) :
    Json.parse text = .ok tree := by
  cases hparse : Json.parse text with
  | ok found =>
    rw [hparse] at h
    exact congrArg Except.ok (Json.eq_of_render_eq (Option.some.inj h))
  | error e =>
    rw [hparse] at h
    cases h

/-- A set is made of the flags and the metadata in the tree of a text, which are in order. -/
theorem parse_eq_of_object {text : String} {members flags metadata : Entries Json}
    (hroot : Json.parse text = .ok (.object members))
    (once : ∀ name ∈ DocumentParts.record.names, (Document.ofText text).root.occurrences name ≤ 1)
    (hflags : members.get? "flags" = some (.object flags))
    (hmetadata : members.get? "metadata" = some (.object metadata) ∨
      (members.get? "metadata" = none ∨ members.get? "metadata" = some .null) ∧ metadata = [])
    (hremoved : members.get? "removed" = none ∨
      ∃ keys : List String, members.get? "removed" = some (.array (keys.map .string))) :
    (Json.object flags).sorted = .object flags ∧ metadata.Sorted ∧
      FlagSet.parse text = (do
        let flags ← DocumentParts.flagsOf flags
        let metadata ← DocumentParts.metadataOf metadata
        return ⟨flags, metadata⟩) := by
  have hjson := Reader.faulty_eq_ok.1 (Reader.ofText_eq_ok.1 hroot).1
  have inOrder := Draft.sorted_of_json _ hjson
  refine ⟨sorted_of_mem inOrder (Entries.mem_of_get? hflags), ?_, ?_⟩
  · obtain hobject | ⟨-, hnil⟩ := hmetadata
    · exact (members_of_sorted (sorted_of_mem inOrder (Entries.mem_of_get? hobject))).1
    · rw [hnil]
      exact .nil
  · obtain ⟨parts, hparts⟩ := DocumentParts.exists_ofText hroot once hflags hmetadata hremoved
    obtain ⟨hpartFlags, hpartMetadata⟩ := DocumentParts.parts_of_object hjson once hparts
    refine parse_eq hparts (hpartFlags.trans (by rw [hflags]; rfl)) ?_
    rw [hpartMetadata]
    obtain hobject | ⟨hnone | hnull, hnil⟩ := hmetadata
    · exact .inl (by rw [hobject]; rfl)
    · exact .inr ⟨by rw [hnone]; rfl, hnil⟩
    · exact .inr ⟨by rw [hnull]; rfl, hnil⟩

/-- A document whose flags are objects is accepted exactly if all its flags are admissible and its
metadata are scalars. -/
theorem parse_objects {text : String} {members flags metadata : Entries Json}
    (hroot : Json.parse text = .ok (.object members))
    (once : ∀ name ∈ ["flags", "metadata", "removed"],
      (Document.ofText text).root.occurrences name ≤ 1)
    (hflags : members.get? "flags" = some (.object flags))
    (hobjects : ∀ e ∈ flags, ∃ ms, e.2 = .object ms)
    (hmetadata : members.get? "metadata" = some (.object metadata) ∨
      (members.get? "metadata" = none ∨ members.get? "metadata" = some .null) ∧ metadata = [])
    (hremoved : members.get? "removed" = none ∨
      ∃ keys : List String, members.get? "removed" = some (.array (keys.map .string))) :
    ((∃ set, FlagSet.parse text = .ok set) ↔
      (∀ e ∈ flags, FlagDefinition.Admissible e.1 e.2.member?) ∧ ∀ e ∈ metadata, e.2.IsScalar) ∧
    (∀ set, FlagSet.parse text = .ok set →
      (∀ key, Option.Rel (fun tree flag => FlagDefinition.Describes key tree.member? flag)
        (flags.get? key) (set.flags.get? key)) ∧
      ∀ name, Option.Rel StandsForScalar (metadata.get? name) (set.metadata.get? name)) ∧
    (∀ error, FlagSet.parse text = .error error →
      (∃ key tree, (key, tree) ∈ flags ∧ ¬FlagDefinition.Admissible key tree.member? ∧
        (∀ e ∈ flags, Utf8.encode e.1 < Utf8.encode key →
          FlagDefinition.Admissible e.1 e.2.member?) ∧
        FlagDefinition.ofJson key tree = .error error ∧ error.Names key) ∨
      (∀ e ∈ flags, FlagDefinition.Admissible e.1 e.2.member?) ∧
        ∃ e ∈ metadata, ¬e.2.IsScalar ∧ error = .structuredMetadata e.1) := by
  obtain ⟨flagsInOrder, metadataInOrder, hparse⟩ :=
    parse_eq_of_object hroot once hflags hmetadata hremoved
  have admissible := DocumentParts.exists_flagsOf_iff_admissible flagsInOrder hobjects
  have scalars : (∃ ms, DocumentParts.metadataOf metadata = .ok ms) ↔
      ∀ e ∈ metadata, e.2.IsScalar := DocumentParts.exists_metadataOf_iff
  rw [hparse]
  refine ⟨⟨?_, ?_⟩, fun set hset => ?_, fun error herror => ?_⟩
  · rintro ⟨set, hset⟩
    obtain ⟨fs, hfs, hset⟩ := bind_eq_ok.1 hset
    obtain ⟨ms, hms, -⟩ := bind_eq_ok.1 hset
    exact ⟨admissible.1 ⟨fs, hfs⟩, scalars.1 ⟨ms, hms⟩⟩
  · rintro ⟨hall, hscalar⟩
    obtain ⟨fs, hfs⟩ := admissible.2 hall
    obtain ⟨ms, hms⟩ := scalars.2 hscalar
    exact ⟨_, bind_eq_ok.2 ⟨fs, hfs, bind_eq_ok.2 ⟨ms, hms, rfl⟩⟩⟩
  · obtain ⟨fs, hfs, hset⟩ := bind_eq_ok.1 hset
    obtain ⟨ms, hms, hset⟩ := bind_eq_ok.1 hset
    cases hset
    refine ⟨DocumentParts.describes_of_flagsOf flagsInOrder hobjects hfs, ?_⟩
    have found := Entries.get?_of_checked metadataInOrder (DocumentParts.metadataOf_eq_ok.1 hms)
    simpa only [MetadataValue.ofJson?_eq_some] using found
  · obtain hbad | ⟨fs, hfs, herror⟩ := bind_eq_error.1 herror
    · exact .inl (DocumentParts.smallest_of_flagsOf flagsInOrder hobjects hbad)
    · obtain hbad | ⟨_, _, hpure⟩ := bind_eq_error.1 herror
      · exact .inr ⟨admissible.1 ⟨fs, hfs⟩, DocumentParts.metadataOf_eq_error hbad⟩
      · cases hpure

/-- Two bad flags and bad metadata. -/
def twoBadFlags : String :=
  "\x7b\"flags\":\x7b\"b\":\x7b\x7d,\"a\":\x7b\"state\":\"ENABLED\",\"variants\":" ++
  "\x7b\"on\":true\x7d,\"defaultVariant\":\"off\"\x7d\x7d,\"metadata\":\x7b\"m\":[]\x7d\x7d"

/-- The members of a flag whose default is no variant. -/
def strayDefault : Entries Json :=
  [("defaultVariant", "off"), ("state", "ENABLED"), ("variants", .object [("on", .bool true)])]

theorem not_admissible_strayDefault :
    ¬FlagDefinition.Admissible "a" (Json.object strayDefault).member? := by
  intro h
  obtain ⟨variants, default, hvariants, -, -, hdefault, hmem⟩ := h.variants
  cases hvariants
  cases hdefault
  simp at hmem

/-- An integer that fits, one that does not and lies between two doubles, and rules that do not
count. -/
def goodFlag : String :=
  "\x7b\"flags\":\x7b\"f\":\x7b\"state\":\"DISABLED\",\"targeting\":\x7b\x7d,\"variants\":" ++
  "\x7b\"small\":-1,\"large\":9223372036854775809\x7d,\"defaultVariant\":\"small\"\x7d\x7d," ++
  "\"metadata\":\x7b\"m\":true\x7d\x7d"

/-- The members of `goodFlag`, in order. -/
def fittingAndNot : Entries Json :=
  [("defaultVariant", "small"), ("state", "DISABLED"), ("targeting", .object []),
    ("variants", .object [
      ("large", .number (.integer 9223372036854775809 (by decide))),
      ("small", .number (.integer (-1) (by decide)))])]

theorem admissible_fittingAndNot :
    FlagDefinition.Admissible "f" (Json.object fittingAndNot).member? where
  key := by decide
  state := .inr rfl
  variants := ⟨_, _, rfl, by simp, by simp [IsValue], rfl, by simp⟩
  metadata := nofun

/-- A good document is accepted with the values that it stands for, the large integer with the
double nearest to it. Of two bad flags and bad metadata, the flag with the smaller key is reported. -/
theorem parse_objects_good_and_bad :
    (∃ set flag, FlagSet.parse goodFlag = .ok set ∧ set.flags.get? "f" = some flag ∧
      set.flags.get? "g" = none ∧ flag.state = .disabled ∧ flag.targeting = none ∧
      flag.variants.get? "small" = some (.integer (-1)) ∧
      flag.variants.get? "large" =
        some (.double ⟨⟨false, 0x43E0000000000000, by decide⟩, by decide⟩) ∧
      set.metadata.get? "m" = some (.bool true)) ∧
    ∃ error, FlagSet.parse twoBadFlags = .error error ∧ error.Names "a" := by
  constructor
  · have hroot : Json.parse goodFlag = .ok (.object
        [("flags", .object [("f", .object fittingAndNot)]),
          ("metadata", .object [("m", .bool true)])]) := parse_eq_of_render (by decide +kernel)
    obtain ⟨accepted, describes, -⟩ :=
      parse_objects hroot (by decide +kernel) rfl (by simp) (.inl rfl) (.inl rfl)
    obtain ⟨set, hset⟩ := accepted.2
      ⟨List.forall_mem_singleton.2 admissible_fittingAndNot, List.forall_mem_singleton.2 trivial⟩
    obtain ⟨flags, scalars⟩ := describes set hset
    obtain ⟨flag, hflag, found⟩ := rel_some_left.1 (flags "f")
    obtain ⟨variants, hvariants, values⟩ := found.variants
    cases hvariants
    obtain ⟨small, hsmall, isSmall⟩ := rel_some_left.1 (values "small")
    obtain ⟨large, hlarge, isLarge⟩ := rel_some_left.1 (values "large")
    obtain ⟨scalar, hscalar, isScalar⟩ := rel_some_left.1 (scalars "m")
    refine ⟨set, flag, hset, hflag, rel_none_left.1 (flags "g"), found.disabled_iff.2 rfl, ?_, ?_,
      ?_, ?_⟩
    · refine Option.eq_none_iff_forall_ne_some.2 fun rules targeted => ?_
      obtain ⟨same, -, counts⟩ := (found.targeting rules).1 targeted
      exact counts (Option.some.inj same).symm
    · rw [hsmall, FlagValue.eq_of_standsFor isSmall (.integer (.integer (-1) (by decide)))]
    · have nearest : Binary64.IsNearestTo ⟨false, 0x43E0000000000000, by decide⟩
          9223372036854775809 := (Binary64.isNearestTo_iff (by decide)).2 (by decide +kernel)
      rw [hlarge, FlagValue.eq_of_standsFor isLarge
        (.double (x := ⟨_, by decide⟩) (.beyond _ (by decide) nearest))]
    · rw [hscalar, MetadataValue.eq_of_standsForScalar isScalar (.bool true)]
  · have hroot : Json.parse twoBadFlags = .ok (.object
        [("flags", .object [("a", .object strayDefault), ("b", .object [])]),
          ("metadata", .object [("m", .array [])])]) := parse_eq_of_render (by decide +kernel)
    obtain ⟨accepted, -, refused⟩ :=
      parse_objects hroot (by decide +kernel) rfl (by simp) (.inl rfl) (.inl rfl)
    have stray := not_admissible_strayDefault
    cases hparse : FlagSet.parse twoBadFlags with
    | ok set => exact absurd ((accepted.1 ⟨set, hparse⟩).1 _ List.mem_cons_self) stray
    | error error =>
      refine ⟨error, rfl, ?_⟩
      obtain ⟨key, tree, hmem, -, smaller, -, names⟩ | ⟨admissible, -⟩ := refused error hparse
      · obtain heq | heq : key = "a" ∨ key = "b" := by
          simp only [List.mem_cons, Prod.mk.injEq, List.not_mem_nil, or_false] at hmem
          exact hmem.imp And.left And.left
        · exact heq ▸ names
        · rw [heq] at smaller
          exact absurd (smaller _ List.mem_cons_self (utf8_encode_lt.2 (by decide))) stray
      · exact absurd (admissible _ List.mem_cons_self) stray

end FlagSet

end FeatureFlags
