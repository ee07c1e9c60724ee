import FeatureFlags.Channel.File
import FeatureFlags.Proofs.Outcomes
import Mathlib.Data.List.Destutter

/-!
# Sessions on a file

A session remembers the text that it read last, and delivers what is read next if its text differs.
So what is delivered are the contents that were read, without those that repeat the ones before them
(`List.destutter`), up to the first read that fails.

* `FileChannel.connect_eq_error`, `connect_eq_ok`: a session is opened by the first read. The watch
  fails only where the read would fail as well, as a file lies in a directory (`Files.Placed`).
* `FileSession.Holds.cons_items`: all reads, by induction on those that are still to come. What
  carries it is that the session holds the text that it delivered last.
-/

namespace FeatureFlags

open Outcome

/-- Each file has a name and lies in a directory. -/
def Files.Placed (files : Files) : Prop :=
  ∀ path bytes, files path = some (.file bytes) →
    (fileName? path).isSome = true ∧ files.isDirectory (directoryOf path) = true

namespace FileContents

variable {reads more : List (Except SyncError FileContents)} {contents : FileContents}
  {error : SyncError}

/-- The texts differ. When the file was changed does not count. -/
def Differ (x y : FileContents) : Prop := x.text ≠ y.text

instance : DecidableRel Differ := fun _ _ => inferInstanceAs (Decidable (_ ≠ _))

/-- What was read before the first failure. -/
def readBy : List (Except SyncError FileContents) → List FileContents
  | .ok contents :: reads => contents :: readBy reads
  | _ => []

/-- The first failure of some reads. -/
def failure? : List (Except SyncError FileContents) → Option SyncError
  | [] => none
  | .ok _ :: reads => failure? reads
  | .error error :: _ => some error

theorem readBy_append (going : failure? reads = none) :
    readBy (reads ++ more) = readBy reads ++ readBy more := by
  induction reads with
  | nil => rfl
  | cons read reads ih =>
    cases read with
    | ok contents => exact congrArg (contents :: ·) (ih going)
    | error error => cases going

theorem failure?_append (going : failure? reads = none) :
    failure? (reads ++ more) = failure? more := by
  induction reads with
  | nil => rfl
  | cons read reads ih =>
    cases read with
    | ok contents => exact ih going
    | error error => cases going

/-- The last of the contents that are kept has the text of the last of all. -/
theorem getLast?_destutter (first : FileContents) (rest : List FileContents)
    (last : FileContents) : ∃ kept : FileContents, kept.text = last.text ∧
      ((first :: (rest ++ [last])).destutter Differ).getLast? = some kept := by
  rw [List.destutter_cons']
  induction rest generalizing first with
  | nil =>
    by_cases differ : Differ first last
    · exact ⟨last, rfl, by rw [List.nil_append, List.destutter'_cons_pos _ differ]; rfl⟩
    · refine ⟨first, not_not.1 differ, ?_⟩
      rw [List.nil_append, List.destutter'_cons_neg _ differ]
      rfl
  | cons next rest ih =>
    rw [List.cons_append]
    by_cases differ : Differ first next
    · obtain ⟨kept, same, found⟩ := ih next
      refine ⟨kept, same, ?_⟩
      rw [List.destutter'_cons_pos _ differ, List.getLast?_cons, found]
      rfl
    · rw [List.destutter'_cons_neg _ differ]
      exact ih first

end FileContents

open FileContents

namespace FileSession

variable {session : FileSession} {reads : List (Except SyncError FileContents)}
  {contents : FileContents}

/-- What somebody is given who asks again and again, once for each read, until the session ends. -/
def items : FileSession → List (Except SyncError FileContents) → List Delivery
  | _, [] => []
  | session, read :: reads =>
    match session.next read with
    | (some .ended, _) => []
    | (delivery, session) => delivery.toList ++ items session reads

/-! ## One read -/

/-- A session that goes on and has delivered these contents last. -/
structure Holds (session : FileSession) (contents : FileContents) : Prop where
  current : session.current = contents.text
  first : session.first = none
  going : session.finished = false

theorem Holds.next_eq_step (h : session.Holds contents)
    (read : Except SyncError FileContents) : session.next read = session.step read := by
  unfold next
  rw [h.first, h.going]
  rfl

theorem Holds.items_of_differ (h : session.Holds contents) {next : FileContents}
    (differ : Differ contents next) (reads : List (Except SyncError FileContents)) :
    session.items (.ok next :: reads) = .message (message session.path next) ::
      { session with current := next.text }.items reads := by
  have other : ¬ next.text = session.current := fun same =>
    differ (h.current.symm.trans same.symm)
  have delivers : session.step (.ok next) =
      (some (.message (message session.path next)), { session with current := next.text }) := by
    unfold step
    rw [if_neg (by simp [h.going])]
    exact if_neg other
  rw [items, h.next_eq_step, delivers]
  rfl

theorem Holds.items_of_same (h : session.Holds contents) {next : FileContents}
    (same : ¬ Differ contents next) (reads : List (Except SyncError FileContents)) :
    session.items (.ok next :: reads) = session.items reads := by
  have unchanged : next.text = session.current := (not_not.1 same).symm.trans h.current.symm
  have stays : session.step (.ok next) = (none, session) := by
    unfold step
    rw [if_neg (by simp [h.going])]
    exact if_pos unchanged
  rw [items, h.next_eq_step, stays]
  rfl

/-- Behind an error there is only the end of the session. -/
theorem Holds.items_of_error (h : session.Holds contents) (error : SyncError)
    (reads : List (Except SyncError FileContents)) :
    session.items (.error error :: reads) = [.failed error] := by
  have fails : session.step (.error error) =
      (some (.failed error), { session with finished := true }) := by
    unfold step
    rw [if_neg (by simp [h.going])]
  have ends : { session with finished := true }.items reads = [] := by
    cases reads with
    | nil => rfl
    | cons read reads =>
      rw [items, next, h.first]
      rfl
  rw [items, h.next_eq_step, fails]
  exact congrArg (Delivery.failed error :: ·) ends

/-! ## All reads -/

/-- With the contents that it has delivered last in front, a session delivers what remains without
repetitions, and then the first failure. -/
theorem Holds.cons_items (h : session.Holds contents)
    (reads : List (Except SyncError FileContents)) :
    .message (message session.path contents) :: session.items reads =
      ((contents :: readBy reads).destutter Differ).map
          (fun kept => .message (message session.path kept)) ++
        (failure? reads).toList.map .failed := by
  rw [List.destutter_cons']
  induction reads generalizing session contents with
  | nil => rfl
  | cons read reads ih =>
    cases read with
    | ok next =>
      rw [readBy, failure?]
      by_cases differ : Differ contents next
      · have holds : ({ session with current := next.text } : FileSession).Holds next :=
          ⟨rfl, h.first, h.going⟩
        rw [h.items_of_differ differ, List.destutter'_cons_pos _ differ, List.map_cons,
          List.cons_append]
        exact congrArg _ (ih holds)
      · rw [h.items_of_same differ, List.destutter'_cons_neg _ differ]
        exact ih h
    | error error =>
      rw [h.items_of_error]
      rfl

/-- The first answer waits since the session was opened, so that no read goes into it. -/
theorem items_start (path : String) (contents : FileContents)
    (unread : Except SyncError FileContents) (reads : List (Except SyncError FileContents)) :
    (start path contents).items (unread :: reads) =
      ((contents :: readBy reads).destutter Differ).map
          (fun kept => .message (message path kept)) ++
        (failure? reads).toList.map .failed := by
  have holds : ({ start path contents with first := none } : FileSession).Holds contents :=
    ⟨rfl, rfl, rfl⟩
  exact holds.cons_items reads

/-- If both are documents, their contents differ. -/
def Changes (x y : Delivery) : Prop :=
  ∀ p q : SyncPayload, x = .message (.configuration p) → y = .message (.configuration q) →
    p.content ≠ q.content

/-- Of two documents that are delivered one after the other, the second has another text. -/
theorem content_ne_of_items {path : String} {unread : Except SyncError FileContents}
    {before after : List Delivery} {p q : SyncPayload}
    (split : (start path contents).items (unread :: reads) =
      before ++ .message (.configuration p) :: .message (.configuration q) :: after) :
    p.content ≠ q.content := by
  have chain : ((start path contents).items (unread :: reads)).IsChain Changes := by
    rw [items_start, List.isChain_append]
    refine ⟨?_, ?_, ?_⟩
    · refine List.isChain_map_of_isChain _ ?_ (List.isChain_destutter Differ _)
      rintro x y differ _ _ ⟨⟩ ⟨⟩ same
      exact differ (PayloadContent.full.inj same)
    · cases failure? reads <;> simp
    · -- behind the documents there is at most an error
      rintro x - y found p q - rfl
      cases hfailure : failure? reads <;> simp [hfailure] at found
  rw [split, List.isChain_append_cons_cons] at chain
  exact chain.2.1 p q rfl rfl

end FileSession

namespace FileChannel

variable {channel : FileChannel} {files : Files} {version : Option String}
  {contents : FileContents} {session : FileSession} {error : SyncError}

theorem connect_eq_ok : channel.connect files version = .ok session ↔
    channel.watch files = .ok () ∧ ∃ contents, channel.read files version = .ok contents ∧
      session = .start channel.path contents := by
  simp only [connect, bind_eq_ok, pure, Except.pure, Except.ok.injEq, eq_comm (b := session)]
  exact ⟨fun ⟨_, watched, opened⟩ => ⟨watched, opened⟩,
    fun ⟨watched, opened⟩ => ⟨_, watched, opened⟩⟩

theorem connect_eq_error (watched : channel.watch files = .ok ()) :
    channel.connect files version = .error error ↔ channel.read files version = .error error := by
  rw [connect, watched]
  cases channel.read files version <;> simp [bind, Except.bind, pure, Except.pure]

/-- A file that can be read can be watched. -/
theorem watch_of_read (placed : files.Placed) (read : channel.read files version = .ok contents) :
    channel.watch files = .ok () := by
  unfold FileChannel.read at read
  split at read
  · cases read
  · cases read
  · rename_i bytes found
    obtain ⟨named, inside⟩ := placed channel.path bytes found
    unfold watch
    rw [if_neg (by simpa [Option.isSome_iff_ne_none] using named), if_pos inside]

/-- A session is opened exactly if the first read succeeds, and the error is that of the read if the
directory can be watched. It delivers the contents that are read, in their order, each with the time
at which the file was changed, but none whose text is that of the contents before it, and then the
error of the first read that fails. So the first contents are always delivered, a document differs
from the one delivered before it, after a successful read the last document has the text that was
read, and nothing follows an error. -/
theorem delivers_each_change_once (channel : FileChannel) (version : Option String)
    (files : Files) :
    (files.Placed → ((∃ error, channel.connect files version = .error error) ↔
      ∃ error, channel.read files version = .error error)) ∧
    (channel.watch files = .ok () → ∀ error, channel.connect files version = .error error ↔
      channel.read files version = .error error) ∧
    ∀ session, channel.connect files version = .ok session →
      ∃ first, channel.read files version = .ok first ∧ ∀ unread reads,
        session.items (unread :: reads) =
          ((first :: readBy reads).destutter Differ).map
              (fun kept => .message (FileSession.message channel.path kept)) ++
            (failure? reads).toList.map .failed ∧
        (session.items (unread :: reads)).head? =
          some (.message (FileSession.message channel.path first)) ∧
        (∀ before p q after, session.items (unread :: reads) =
            before ++ .message (.configuration p) :: .message (.configuration q) :: after →
          p.content ≠ q.content) ∧
        (failure? reads = none →
          (∀ contents : FileContents, ∃ kept : FileContents, kept.text = contents.text ∧
            (session.items (unread :: reads ++ [.ok contents])).getLast? =
              some (.message (FileSession.message channel.path kept))) ∧
          ∀ error more, session.items (unread :: reads ++ .error error :: more) =
            session.items (unread :: reads) ++ [.failed error]) := by
  refine ⟨fun placed => ?_, fun watched error => connect_eq_error watched, ?_⟩
  · constructor
    · rintro ⟨error, failed⟩
      cases read : channel.read files version with
      | error error => exact ⟨error, rfl⟩
      | ok first =>
        rw [connect_eq_error (watch_of_read placed read), read] at failed
        cases failed
    · rintro ⟨error, failed⟩
      cases opened : channel.connect files version with
      | error error => exact ⟨error, rfl⟩
      | ok session =>
        obtain ⟨-, first, read, -⟩ := connect_eq_ok.1 opened
        cases failed.symm.trans read
  · intro session opened
    obtain ⟨-, first, read, rfl⟩ := connect_eq_ok.1 opened
    refine ⟨first, read, fun unread reads => ⟨FileSession.items_start .., rfl,
      fun _ _ _ _ split => FileSession.content_ne_of_items split, fun going => ⟨?_, ?_⟩⟩⟩
    · intro contents
      obtain ⟨kept, same, last⟩ := getLast?_destutter first (readBy reads) contents
      refine ⟨kept, same, ?_⟩
      rw [List.cons_append, FileSession.items_start, readBy_append going, failure?_append going]
      simp only [readBy, failure?, Option.toList_none, List.map_nil, List.append_nil,
        List.getLast?_map, last, Option.map_some]
    · intro error more
      rw [List.cons_append, FileSession.items_start, FileSession.items_start, readBy_append going,
        failure?_append going, going]
      simp [readBy, failure?]

theorem names_f : Files.names "f" = ["f"] := by
  -- a path is split by well-founded recursion, so its steps are taken one by one
  have split : "f".splitOnAux "/" 0 0 0 [] = ["f"] := by
    rw [String.splitOnAux, if_neg (by decide), if_neg (by decide), String.splitOnAux,
      if_pos (by decide)]
    decide
  rw [Files.names, String.splitOn, if_neg (by decide), split]
  decide

/-- A file that is written again, changed, changed back and removed: the contents that come back are
delivered once more, and those that were only written again are not. -/
theorem delivers_each_change_once_changed_back :
    let channel : FileChannel := { path := "f" }
    let files : Files := fun path =>
      if path = "f" then some (.file [0x7B, 0x7D])
      else if path = "." then some .directory else none
    let session := FileSession.start "f" ⟨"\x7b\x7d", some "t0"⟩
    let read (text time : String) : Except SyncError FileContents := .ok ⟨text, some time⟩
    let reads := [read "\x7b\x7d" "t1", read "[]" "t2", read "[]" "t3", read "\x7b\x7d" "t4"]
    let delivered (text time : String) : Delivery :=
      .message (FileSession.message "f" ⟨text, some time⟩)
    files.Placed ∧ channel.connect files (some "t0") = .ok session ∧
      ∀ unread more, session.items (unread :: reads ++ .error (.io "gone") :: more) =
        [delivered "\x7b\x7d" "t0", delivered "[]" "t2", delivered "\x7b\x7d" "t4",
          .failed (.io "gone")] := by
  intro channel files session read reads delivered
  have placed : files.Placed := by
    intro path bytes found
    by_cases named : path = "f"
    · subst named
      have directory : Files.directoryOf "f" = "." := by
        rw [Files.directoryOf, names_f]
        simp
      rw [directory, Files.fileName?, names_f]
      exact ⟨by decide, rfl⟩
    · by_cases here : path = "." <;> simp [files, named, here] at found
  have opened : channel.connect files (some "t0") = .ok session := by
    have first : channel.read files (some "t0") = .ok ⟨"\x7b\x7d", some "t0"⟩ := by
      have text : Utf8.decode? [0x7B, 0x7D] = some "\x7b\x7d" := by decide +kernel
      simp [FileChannel.read, channel, files, text]
    exact connect_eq_ok.2 ⟨watch_of_read placed first, _, first, rfl⟩
  refine ⟨placed, opened, fun unread more => ?_⟩
  obtain ⟨-, -, delivers⟩ := delivers_each_change_once channel (some "t0") files
  obtain ⟨first, -, holds⟩ := delivers session opened
  obtain ⟨-, -, -, later⟩ := holds unread reads
  rw [(later rfl).2 (.io "gone") more]
  rfl

end FileChannel

end FeatureFlags
