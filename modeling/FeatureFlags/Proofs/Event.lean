import FeatureFlags.Event
import FeatureFlags.Proofs.Json.Scanning
import FeatureFlags.Proofs.Json.Stages
import FeatureFlags.Proofs.Timestamp

/-!
# Events written and read again

Every event is read back from the text and from the tree that it is written as
(`ProviderEvent.survives_writing`). What an event leaves out when it is written, because there is
nothing in it, is what reading puts where a member is not there. So where members are taken out of
the tree, these parts of the event are empty and the others are as they were.
-/

namespace FeatureFlags

open Json Outcome

/-! ## Parts of events -/

theorem ProviderEventKind.ofName?_name (kind : ProviderEventKind) :
    Named.ofName? (Named.name kind) = some kind := by
  cases kind <;> rfl

theorem ErrorType.ofName?_name (type : ErrorType) :
    Named.ofName? (Named.name type) = some type := by
  cases type <;> rfl

section Parts

variable {origin inside : Origin}

theorem SyncMetadata.reader_toJson (henter : origin.enter = .ok inside) (metadata : SyncMetadata) :
    SyncMetadata.reader origin (.ofJson metadata.toJson) = .ok metadata := by
  have members : Reader.members Reader.string origin (.ofJson metadata.toJson) =
      .ok metadata.entries := Reader.members_ofJson henter fun _ _ => rfl
  exact map_eq_ok.2 ⟨_, members, Dict.ofEntries_entries metadata⟩

theorem SyncMetadata.sorted_toJson (metadata : SyncMetadata) :
    metadata.toJson.sorted = metadata.toJson := sorted_of_dict metadata fun _ _ => rfl

theorem SyncMetadata.fits_toJson (metadata : SyncMetadata) : metadata.toJson.Fits 1 := by
  refine fits_object.2 fun e he => ?_
  obtain ⟨entry, -, rfl⟩ := List.mem_map.1 he
  exact fits_string

theorem Timestamp.reader_text (t : Timestamp) :
    Timestamp.reader origin (.ofJson (.string t.text)) = .ok t := by
  refine bind_eq_ok.2 ⟨t.text, rfl, ?_⟩
  rw [parse_text]
  rfl

namespace EventError

/-- The error with the parts that are present. -/
def stage (error : EventError) (present : String → Bool) : EventError where
  errorType := if present "error_type" then error.errorType else .general
  message := if present "message" then error.message else ""
  fatal := if present "fatal" then error.fatal else false

/-- The members of the object that an error is written as. -/
def members (error : EventError) : Entries Json :=
  [("error_type", Named.toJson error.errorType), ("message", .string error.message),
    ("fatal", .bool error.fatal)]

theorem toJson_eq (error : EventError) : error.toJson = .object error.members := rfl

theorem sorted_toJson (error : EventError) : error.toJson.sorted = .object error.members.sort := by
  rw [toJson_eq]
  refine sorted_object ?_
  simp [members, Named.toJson, sorted]

theorem fits_toJson (error : EventError) : error.toJson.Fits 1 := by
  refine fits_object.2 ?_
  simp only [List.forall_mem_cons, List.not_mem_nil, false_imp_iff, implies_true, and_true]
  exact ⟨fits_string, fits_string, trivial, Nat.le_refl 0⟩

/-- An error is read from an object with its members, in any order. -/
theorem reader_object (error : EventError) (henter : origin.enter = .ok inside) {ms : Entries Json}
    (distinct : (ms.map (·.1)).Nodup)
    (found : ∀ name, ms.get? name = error.members.get? name) :
    reader origin (.ofJson (.object ms)) = .ok error := by
  have errorType : ms.get? "error_type" = some (Named.toJson error.errorType) := found _
  have message : ms.get? "message" = some (.string error.message) := found _
  have fatal : ms.get? "fatal" = some (.bool error.fatal) := found _
  have advances : ∀ field ∈ record.fields, ∀ y, ms.get? field.name = some y →
      field.Advances inside error.stage y := by
    simp only [record, List.forall_mem_cons]
    refine ⟨fun y hy => ?_, fun y hy => ?_, fun y hy => ?_, by simp⟩
    · cases errorType.symm.trans hy
      exact Field.advances true (Named.reader_toJson (ErrorType.ofName?_name _)) fun present => by
        simp [stage]
    · cases message.symm.trans hy
      exact Field.advances true rfl fun present => by simp [stage]
    · cases fatal.symm.trans hy
      exact Field.advances true rfl fun present => by simp [stage]
  have required : ∀ field ∈ record.fields, field.required = true →
      (ms.get? field.name).isSome = true := by
    simp [record, Field.needed, errorType, message, fatal]
  refine (Record.reader_of_stages rfl henter distinct advances required).trans ?_
  simp [stage, Record.names, record, Field.needed, errorType, message, fatal]

/-- An error is read from its tree, whether the members stand as they are written or in order. -/
theorem reader_toJson (error : EventError) (henter : origin.enter = .ok inside) :
    reader origin (.ofJson error.toJson) = .ok error ∧
      reader origin (.ofJson error.toJson.sorted) = .ok error := by
  have distinct : (error.members.map (·.1)).Nodup := by simp [members]
  rw [sorted_toJson]
  exact ⟨reader_object error henter distinct fun _ => rfl,
    reader_object error henter (Entries.nodup_of_sorted (Entries.sorted_sort _))
      (Entries.get?_sort_of_nodup distinct)⟩

end EventError

end Parts

/-! ## Events -/

/-- The object without the members of some names. -/
def Json.without (tree : Json) (names : List String) : Json :=
  match tree with
  | .object ms => .object (ms.filter fun e => !names.contains e.1)
  | x => x

theorem Json.without_nil (tree : Json) : tree.without [] = tree := by
  cases tree <;> simp [without]

namespace ProviderEvent

/-- The event with nothing in the parts of some names. -/
def without (event : ProviderEvent) (names : List String) : ProviderEvent :=
  { event with
    flagsChanged := if "flags_changed" ∈ names then [] else event.flagsChanged
    syncMetadata := if "sync_metadata" ∈ names then ∅ else event.syncMetadata
    error := if "error" ∈ names then none else event.error
    message := if "message" ∈ names then none else event.message
    sequence := if "sequence" ∈ names then 0 else event.sequence }

/-- The event with the parts that are present. -/
def stage (event : ProviderEvent) (present : String → Bool) : ProviderEvent where
  kind := if present "kind" then event.kind else .ready
  flagsChanged := if present "flags_changed" then event.flagsChanged else []
  syncMetadata := if present "sync_metadata" then event.syncMetadata else ∅
  error := if present "error" then event.error else none
  message := if present "message" then event.message else none
  sequence := if present "sequence" then event.sequence else 0
  timestamp := if present "timestamp" then event.timestamp else .epoch

/-- What stands under the names of an event's parts where it is written. -/
structure Written (event : ProviderEvent) (part : String → Option Json) : Prop where
  kind : part "kind" = some (Named.toJson event.kind)
  flagsChanged : part "flags_changed" =
    if event.flagsChanged.isEmpty then none else some (.array (event.flagsChanged.map .string))
  syncMetadata : part "sync_metadata" = some event.syncMetadata.toJson
  error : part "error" = event.error.map EventError.toJson ∨
    part "error" = event.error.map fun error => error.toJson.sorted
  message : part "message" = event.message.map .string
  sequence : part "sequence" = some (.ofUInt64 event.sequence)
  timestamp : part "timestamp" = some (.string event.timestamp.text)

section Reading

variable {event : ProviderEvent} {part : String → Option Json} {origin inside inner : Origin}
  {names : List String} {ms : Entries Json}

/-- Each field reads what is written of it. -/
theorem Written.advances (written : event.Written part) (henter : origin.enter = .ok inside) :
    ∀ field ∈ record.fields, ∀ y, part field.name = some y →
      field.Advances origin event.stage y := by
  simp only [record, List.forall_mem_cons]
  refine ⟨fun y hy => ?_, fun y hy => ?_, fun y hy => ?_, fun y hy => ?_, fun y hy => ?_,
    fun y hy => ?_, fun y hy => ?_, by simp⟩
  · cases written.kind.symm.trans hy
    exact Field.advances true (Named.reader_toJson (ProviderEventKind.ofName?_name _))
      fun present => by simp [stage]
  · have flags := written.flagsChanged.symm.trans hy
    split at flags
    · cases flags
    cases flags
    exact Field.advances false (Reader.list_ofJson henter fun _ _ => rfl) fun present => by
      simp [stage]
  · cases written.syncMetadata.symm.trans hy
    exact Field.advances false (SyncMetadata.reader_toJson henter _) fun present => by simp [stage]
  · obtain ⟨error, herror, hread⟩ : ∃ error, event.error = some error ∧
        Reader.optional EventError.reader origin (.ofJson y) = .ok (some error) := by
      obtain hpart | hpart := written.error
      · obtain ⟨error, herror, rfl⟩ := Option.map_eq_some_iff.1 (hpart.symm.trans hy)
        exact ⟨error, herror, Reader.optional_ofJson (by simp [EventError.toJson_eq])
          (error.reader_toJson henter).1⟩
      · obtain ⟨error, herror, rfl⟩ := Option.map_eq_some_iff.1 (hpart.symm.trans hy)
        exact ⟨error, herror, Reader.optional_ofJson (by simp [EventError.sorted_toJson])
          (error.reader_toJson henter).2⟩
    exact Field.advances false hread fun present => by simp [stage, herror]
  · obtain ⟨message, hmessage, rfl⟩ := Option.map_eq_some_iff.1 (written.message.symm.trans hy)
    exact Field.advances false (Reader.optional_ofJson (by simp) rfl) fun present => by
      simp [stage, hmessage]
  · cases written.sequence.symm.trans hy
    exact Field.advances false (Reader.uint64_ofJson _) fun present => by simp [stage]
  · cases written.timestamp.symm.trans hy
    exact Field.advances true (Timestamp.reader_text _) fun present => by simp [stage]

/-- An event is read from the members that are left of those that it is written as. -/
theorem Written.reader (written : event.Written part) (henter : origin.enter = .ok inside)
    (hinside : inside.enter = .ok inner) (distinct : (ms.map (·.1)).Nodup)
    (found : ∀ name, ms.get? name = if name ∈ names then none else part name)
    (kind : "kind" ∉ names) (timestamp : "timestamp" ∉ names) :
    ProviderEvent.reader origin (.ofJson (.object ms)) = .ok (event.without names) := by
  have advances : ∀ field ∈ record.fields, ∀ y, ms.get? field.name = some y →
      field.Advances inside event.stage y := fun field hfield y hy => by
    rw [found] at hy
    split at hy
    · cases hy
    · exact written.advances hinside field hfield y hy
  have required : ∀ field ∈ record.fields, field.required = true →
      (ms.get? field.name).isSome = true := by
    simp [record, Field.needed, Field.defaulted, found, kind, timestamp, written.kind,
      written.timestamp]
  refine (Record.reader_of_stages rfl henter distinct advances required).trans ?_
  -- a part that is not there is empty in the event, or its name is among those taken out
  have error : (part "error").isSome = event.error.isSome := by
    obtain hpart | hpart := written.error <;> rw [hpart, Option.isSome_map]
  simp only [stage, found, without, Record.names, record, Field.needed, Field.defaulted,
    written.kind, written.flagsChanged, written.syncMetadata, written.message, written.sequence,
    written.timestamp]
  simp [kind, timestamp]
  refine ⟨?_, ?_, ?_⟩
  · cases event.flagsChanged <;> split <;> simp
  · split
    · rfl
    · rw [error]
      cases event.error <;> rfl
  · cases event.message <;> split <;> simp

end Reading

/-- The members of the object that an event is written as. -/
def members (event : ProviderEvent) : Entries Json :=
  [("kind", Named.toJson event.kind)] ++
  (if event.flagsChanged.isEmpty then []
    else [("flags_changed", .array (event.flagsChanged.map .string))]) ++
  [("sync_metadata", event.syncMetadata.toJson)] ++
  ((event.error.map EventError.toJson).map fun x => ("error", x)).toList ++
  ((event.message.map Json.string).map fun x => ("message", x)).toList ++
  [("sequence", .ofUInt64 event.sequence), ("timestamp", .string event.timestamp.text)]

theorem toJson_eq (event : ProviderEvent) : event.toJson = .object event.members := rfl

theorem distinct_members (event : ProviderEvent) : (event.members.map (·.1)).Nodup := by
  cases flags : event.flagsChanged <;> cases error : event.error <;>
    cases message : event.message <;> simp [members, flags, error, message]

theorem written_members (event : ProviderEvent) : event.Written event.members.get? := by
  cases flags : event.flagsChanged <;> cases error : event.error <;>
    cases message : event.message <;> constructor <;>
    simp [members, flags, error, message, Entries.get?]

/-- In order the members say the same. -/
theorem Written.sorted {event : ProviderEvent} {part : String → Option Json}
    (written : event.Written part) : event.Written fun name => (part name).map Json.sorted where
  kind := by rw [written.kind]; rfl
  flagsChanged := by
    rw [written.flagsChanged]
    split
    · rfl
    · simp [Json.sorted, sortedItems_eq_map]
  syncMetadata := by rw [written.syncMetadata, Option.map_some, SyncMetadata.sorted_toJson]
  error := .inr <| by
    obtain hpart | hpart := written.error
    · rw [hpart, Option.map_map]
      rfl
    · rw [hpart, Option.map_map]
      exact congrArg (Option.map · event.error) (funext fun error => sorted_sorted _)
  message := by
    rw [written.message, Option.map_map]
    rfl
  sequence := by rw [written.sequence]; rfl
  timestamp := by rw [written.timestamp]; rfl

/-- An event is written without doubles and with its parts nested once at most. -/
theorem fits_toJson (event : ProviderEvent) : event.toJson.Fits 2 := by
  have flags : ∀ e ∈ (if event.flagsChanged.isEmpty then []
      else [("flags_changed", Json.array (event.flagsChanged.map .string))]), e.2.Fits 1 := by
    intro e he
    split at he
    · cases he
    · obtain rfl := List.mem_singleton.1 he
      refine fits_array.2 fun x hx => ?_
      obtain ⟨key, -, rfl⟩ := List.mem_map.1 hx
      exact fits_string
  have error : ∀ e ∈ ((event.error.map EventError.toJson).map fun x => ("error", x)).toList,
      e.2.Fits 1 := by
    cases event.error with
    | none => simp
    | some error => simpa using error.fits_toJson
  have message : ∀ e ∈ ((event.message.map Json.string).map fun x => ("message", x)).toList,
      e.2.Fits 1 := by
    cases event.message with
    | none => simp
    | some message => simpa using fits_string
  refine fits_object.2 ?_
  simp only [List.forall_mem_append, List.forall_mem_cons, List.not_mem_nil, false_imp_iff,
    implies_true, and_true]
  exact ⟨⟨⟨⟨⟨fits_string, flags⟩, event.syncMetadata.fits_toJson⟩, error⟩, message⟩,
    ⟨trivial, Nat.zero_le 1⟩, fits_string⟩

theorem sorted_toJson (event : ProviderEvent) :
    event.toJson.sorted = .object (event.members.mapValues Json.sorted).sort := by
  rw [toJson_eq, Json.sorted, sortedMembers_eq_mapValues]

theorem without_nil (event : ProviderEvent) : event.without [] = event := by simp [without]

/-- An event is read from what is left of its tree in order. -/
theorem ofTree_without (event : ProviderEvent) {names : List String} (kind : "kind" ∉ names)
    (timestamp : "timestamp" ∉ names) :
    ProviderEvent.reader.ofTree (event.toJson.sorted.without names) =
      .ok (event.without names) := by
  have inOrder := Entries.sorted_sort (event.members.mapValues Json.sorted)
  have distinct : ((event.members.mapValues Json.sorted).map (·.1)).Nodup := by
    rw [Entries.mapValues, List.map_map]
    exact event.distinct_members
  have enter : Origin.tree.enter = .ok .tree := rfl
  rw [sorted_toJson]
  refine event.written_members.sorted.reader enter enter
    (Entries.nodup_of_sorted (inOrder.sublist List.filter_sublist)) (fun name => ?_) kind timestamp
  refine (Entries.get?_filter _ (fun n => !names.contains n) name).trans ?_
  rw [Entries.get?_sort_of_nodup distinct, Entries.get?_mapValues]
  by_cases taken : name ∈ names <;> simp [taken]

/-- An event is read back from its text, and from the tree that the text is parsed into. Where
members other than the kind and the timestamp are taken out of the tree, the parts of the event
under their names are empty, absent or zero. -/
theorem survives_writing (event : ProviderEvent) :
    ProviderEvent.reader.ofText event.toJson.text = .ok event ∧
    Json.parse event.toJson.text = .ok event.toJson.sorted ∧
    ProviderEvent.reader.ofTree event.toJson.sorted = .ok event ∧
    ∀ names : List String,
      names ⊆ ["flags_changed", "sync_metadata", "error", "message", "sequence"] →
        ProviderEvent.reader.ofTree (event.toJson.sorted.without names) =
          .ok (event.without names) := by
  have fits := event.fits_toJson
  have text : ProviderEvent.reader .whole (.ofJson event.toJson) = .ok (event.without []) :=
    event.written_members.reader rfl rfl event.distinct_members (fun name => rfl) (by simp)
      (by simp)
  have tree := event.ofTree_without (List.not_mem_nil (a := "kind")) List.not_mem_nil
  rw [without_nil] at text tree
  rw [Json.without_nil] at tree
  refine ⟨(Reader.ofText_text fits.1).2 text, parse_text (fits.mono (by decide)), tree,
    fun names optional => ?_⟩
  exact event.ofTree_without (fun kind => by simpa using optional kind)
    fun timestamp => by simpa using optional timestamp

/-- An error event in a leap second with the last number, of which the error and the number are
taken out. -/
theorem survives_writing_leap_second :
    let event : ProviderEvent := {
      kind := .error
      syncMetadata := .ofEntries [("source", "file")]
      error := some ⟨.general, "\"\n", true⟩
      sequence := 0xffffffffffffffff
      timestamp := ⟨⟨-1, 12, 31⟩, 23, 59, 60, 1000, by decide, by decide, by decide, by decide,
        by decide⟩ }
    ProviderEvent.reader.ofText event.toJson.text = .ok event ∧
      ProviderEvent.reader.ofTree (event.toJson.sorted.without ["error", "sequence"]) =
        .ok { event with error := none, sequence := 0 } := by
  intro event
  obtain ⟨text, -, -, taken⟩ := survives_writing event
  have optional : ["error", "sequence"] ⊆
      ["flags_changed", "sync_metadata", "error", "message", "sequence"] := by simp
  exact ⟨text, by simpa [without] using taken _ optional⟩

end ProviderEvent

end FeatureFlags
