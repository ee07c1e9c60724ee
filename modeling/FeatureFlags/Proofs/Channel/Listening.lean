import FeatureFlags.Channel.Sse
import Mathlib.Data.List.Induction

/-!
# Sessions on a stream of events

What a session delivers for a read depends on the reads before it in two ways. It may be over
(`StreamRead.IsOver`), and it may be quiet, as there was a silence and no event of any kind since
(`StreamRead.Quiet`). Both are said of the list of reads, and told by the marks that the session
keeps (`SseSession.Follows`).

* `StreamEvent.Carries`: the messages that events carry, which `message?_eq_some` finds.
* `SseSession.Answers`: what is delivered for a read after others, if the session is not over.
* `Follows.step`, `Follows.answer`: one read. `Fresh.follows`: all reads, by induction from the
  last.
* `SseChannel.session_protocol`: the deliveries of a session that a channel opened.
-/

namespace FeatureFlags

namespace StreamRead

/-- There was a silence, and no event since. -/
def Quiet (reads : List StreamRead) : Prop :=
  ∃ before after, reads = before ++ .silence :: after ∧ ∀ e, .event e ∉ after

/-- What ends a session that goes on: a silence in the quiet, or that the stream breaks or ends. -/
inductive Ends (before : List StreamRead) : StreamRead → Prop where
  | silence (quiet : Quiet before) : Ends before .silence
  | broken (detail : String) : Ends before (.broken detail)
  | ended : Ends before .ended

/-- One of some reads ended the session. -/
def IsOver (reads : List StreamRead) : Prop :=
  ∃ before read after, reads = before ++ read :: after ∧ Ends before read

variable {reads : List StreamRead} {read : StreamRead}

/-- A list that has one more element at its end is split at that one or before it. -/
theorem concat_eq_split {α : Type} {xs before after : List α} {x a : α} :
    xs ++ [x] = before ++ a :: after ↔
      after = [] ∧ xs = before ∧ x = a ∨
        ∃ rest, after = rest ++ [x] ∧ xs = before ++ a :: rest := by
  rcases List.eq_nil_or_concat after with rfl | ⟨rest, last, rfl⟩
  · simp
  · rw [List.concat_eq_append, ← List.cons_append, ← List.append_assoc]
    constructor
    · intro h
      obtain ⟨hxs, hx⟩ := List.append_inj' h rfl
      cases hx
      exact .inr ⟨rest, rfl, hxs⟩
    · rintro (⟨none, -⟩ | ⟨other, h, rfl⟩)
      · exact absurd none (List.append_ne_nil_of_right_ne_nil _ (List.cons_ne_nil _ _))
      · obtain ⟨rfl, hx⟩ := List.append_inj' h rfl
        cases hx
        rfl

theorem quiet_concat :
    Quiet (reads ++ [read]) ↔ read = .silence ∨ Quiet reads ∧ ∀ e, read ≠ .event e := by
  simp only [Quiet, concat_eq_split]
  constructor
  · rintro ⟨before, after, ⟨rfl, rfl, rfl⟩ | ⟨rest, rfl, rfl⟩, none⟩
    · exact .inl rfl
    · refine .inr ⟨⟨before, rest, rfl, fun e he => none e (List.mem_append_left _ he)⟩, ?_⟩
      rintro e rfl
      exact none e (List.mem_append_right _ List.mem_cons_self)
  · rintro (rfl | ⟨⟨before, after, rfl, none⟩, other⟩)
    · exact ⟨reads, [], .inl ⟨rfl, rfl, rfl⟩, fun e he => by cases he⟩
    · refine ⟨before, after ++ [read], .inr ⟨after, rfl, rfl⟩, fun e he => ?_⟩
      rcases List.mem_append.1 he with he | he
      · exact none e he
      · exact other e (List.mem_singleton.1 he).symm

theorem isOver_concat : IsOver (reads ++ [read]) ↔ IsOver reads ∨ Ends reads read := by
  simp only [IsOver, concat_eq_split]
  constructor
  · rintro ⟨before, r, after, ⟨rfl, rfl, rfl⟩ | ⟨rest, rfl, rfl⟩, ends⟩
    · exact .inr ends
    · exact .inl ⟨before, r, rest, rfl, ends⟩
  · rintro (⟨before, r, after, rfl, ends⟩ | ends)
    · exact ⟨before, r, after ++ [read], .inr ⟨after, rfl, rfl⟩, ends⟩
    · exact ⟨reads, read, [], .inl ⟨rfl, rfl, rfl⟩, ends⟩

theorem not_quiet_nil : ¬ Quiet [] := by
  rintro ⟨before, after, h, -⟩
  cases before <;> cases h

theorem not_isOver_nil : ¬ IsOver [] := by
  rintro ⟨before, read, after, h, -⟩
  cases before <;> cases h

end StreamRead

open StreamRead

/-- The identifier of an event, unless it is empty. -/
def StreamEvent.version (event : StreamEvent) : Option String :=
  (some event.id).filter (· != "")

/-- The message that an event carries. There is none for events of other kinds, nor for an update
that is blank. -/
inductive StreamEvent.Carries (event : StreamEvent) (origin : SyncMetadata) :
    SyncMessage → Prop where
  | heartbeat (kind : event.event = "heartbeat") : Carries event origin .heartbeat
  | full (kind : event.event = "configuration" ∨ event.event = "message")
    (filled : ¬ ∀ c ∈ event.data.toList, Text.isBlank c = true) :
    Carries event origin (.configuration ⟨.full event.data, event.version, origin⟩)
  | delta (kind : event.event = "patch")
    (filled : ¬ ∀ c ∈ event.data.toList, Text.isBlank c = true) :
    Carries event origin (.configuration ⟨.delta event.data, event.version, origin⟩)

namespace SseSession

variable {session current : SseSession} {reads : List StreamRead} {read : StreamRead}
  {event : StreamEvent} {delivery : Delivery}

/-- What a session delivers for a read after those before it. -/
inductive Answers (session : SseSession) (before : List StreamRead) :
    StreamRead → Delivery → Prop where
  | event {event : StreamEvent} {message : SyncMessage}
    (carries : event.Carries session.origin message) :
    Answers session before (.event event) (.message message)
  | degraded (loud : ¬ Quiet before) :
    Answers session before .silence (.message (.degraded
      ("no events for " ++ toString session.staleAfter.milliseconds ++ " ms")))
  | idle (quiet : Quiet before) :
    Answers session before .silence (.failed (.idle session.staleAfter))
  | broken (detail : String) : Answers session before (.broken detail) (.failed (.stream detail))
  | ended : Answers session before .ended .ended

theorem message?_eq_some {message : SyncMessage} :
    session.message? event = some message ↔ event.Carries session.origin message := by
  have version : (if event.id = "" then none else some event.id) = event.version := by
    unfold StreamEvent.version
    by_cases h : event.id = "" <;> simp [h, Option.filter]
  have blank : Text.isBlankText event.data = true ↔
      ∀ c ∈ event.data.toList, Text.isBlank c = true := List.all_eq_true
  unfold message?
  dsimp only
  rw [version]
  constructor
  · intro h
    split at h
    · cases h
      exact .heartbeat ‹_›
    split at h
    · cases h
    rename_i filled
    rw [blank] at filled
    split at h
    · cases h
      exact .full (.inl ‹_›) filled
    · cases h
      exact .full (.inr ‹_›) filled
    · cases h
      exact .delta ‹_› filled
    · cases h
  · rintro (kind | ⟨kind | kind, filled⟩ | ⟨kind, filled⟩)
    · rw [if_pos kind]
    all_goals
      rw [← blank] at filled
      simp [kind, filled]

/-! ## One read -/

/-- How a session stands after some reads. -/
structure Follows (session : SseSession) (reads : List StreamRead) (current : SseSession) :
    Prop where
  staleAfter : current.staleAfter = session.staleAfter
  origin : current.origin = session.origin
  finished : current.finished = true ↔ IsOver reads
  silent : ¬ IsOver reads → (current.silent = true ↔ Quiet reads)

/-- Of a session that is over nothing more need be known. -/
theorem Follows.of_over (staleAfter : current.staleAfter = session.staleAfter)
    (origin : current.origin = session.origin) (finished : current.finished = true)
    (ended : IsOver reads) : session.Follows reads current :=
  ⟨staleAfter, origin, iff_of_true finished ended, fun going => absurd ended going⟩

theorem Follows.step (h : session.Follows reads current) (read : StreamRead) :
    session.Follows (reads ++ [read]) (current.step read).2 := by
  have hover : current.finished = true ↔ IsOver reads := h.finished
  unfold SseSession.step
  by_cases finished : current.finished = true
  · rw [if_pos finished]
    exact .of_over h.staleAfter h.origin finished (isOver_concat.2 (.inl (hover.1 finished)))
  have going : ¬ IsOver reads := fun ended => finished (hover.2 ended)
  have quiet := h.silent going
  rw [if_neg finished]
  cases read with
  | event e =>
    -- an event of any kind, even one that carries no message
    have active : ¬ IsOver (reads ++ [.event e]) := by
      rw [isOver_concat]
      rintro (ended | ends)
      · exact going ended
      · cases ends
    refine ⟨h.staleAfter, h.origin, iff_of_false finished active, fun _ => ?_⟩
    simp [quiet_concat]
  | silence =>
    dsimp only
    by_cases silent : current.silent = true
    · rw [if_pos silent]
      exact .of_over h.staleAfter h.origin rfl
        (isOver_concat.2 (.inr (.silence (quiet.1 silent))))
    · have active : ¬ IsOver (reads ++ [.silence]) := by
        rw [isOver_concat]
        rintro (ended | ends)
        · exact going ended
        · cases ends with
          | silence h => exact silent (quiet.2 h)
      rw [if_neg silent]
      exact ⟨h.staleAfter, h.origin, iff_of_false finished active,
        fun _ => iff_of_true rfl (quiet_concat.2 (.inl rfl))⟩
  | broken detail =>
    exact .of_over h.staleAfter h.origin rfl (isOver_concat.2 (.inr (.broken detail)))
  | ended => exact .of_over h.staleAfter h.origin rfl (isOver_concat.2 (.inr .ended))

theorem Follows.answer (h : session.Follows reads current) :
    (current.step read).1 = some delivery ↔
      ¬ IsOver reads ∧ session.Answers reads read delivery := by
  unfold SseSession.step
  by_cases finished : current.finished = true
  · rw [if_pos finished]
    exact iff_of_false nofun fun ⟨going, _⟩ => going (h.finished.1 finished)
  have going : ¬ IsOver reads := fun ended => finished (h.finished.2 ended)
  have quiet := h.silent going
  rw [if_neg finished, and_iff_right going]
  cases read with
  | event e =>
    simp only [Option.map_eq_some_iff, message?_eq_some, h.origin]
    constructor
    · rintro ⟨message, carries, rfl⟩
      exact .event carries
    · rintro (carries | _)
      exact ⟨_, carries, rfl⟩
  | silence =>
    dsimp only
    rw [h.staleAfter]
    by_cases silent : current.silent = true
    · rw [if_pos silent]
      constructor
      · rintro ⟨⟩
        exact .idle (quiet.1 silent)
      · rintro (_ | loud | _)
        · exact absurd (quiet.1 silent) loud
        · rfl
    · rw [if_neg silent]
      constructor
      · rintro ⟨⟩
        exact .degraded fun h => silent (quiet.2 h)
      · rintro (_ | _ | h)
        · rfl
        · exact absurd (quiet.2 h) silent
  | broken detail =>
    constructor
    · rintro ⟨⟩
      exact .broken detail
    · rintro ⟨⟩
      rfl
  | ended =>
    constructor
    · rintro ⟨⟩
      exact .ended
    · rintro ⟨⟩
      rfl

/-! ## All reads -/

/-- The session after some reads. -/
def after (session : SseSession) (reads : List StreamRead) : SseSession :=
  reads.foldl (fun session read => (session.step read).2) session

theorem deliveries_append (session : SseSession) (reads more : List StreamRead) :
    session.deliveries (reads ++ more) =
      session.deliveries reads ++ (session.after reads).deliveries more := by
  induction reads generalizing session with
  | nil => rfl
  | cons read reads ih =>
    have later := ih (session.step read).2
    show (session.step read).1.toList ++ (session.step read).2.deliveries (reads ++ more) = _
    rw [later, ← List.append_assoc]
    rfl

theorem deliveries_concat (session : SseSession) (reads : List StreamRead) (read : StreamRead) :
    session.deliveries (reads ++ [read]) =
      session.deliveries reads ++ ((session.after reads).step read).1.toList := by
  rw [deliveries_append]
  exact congrArg _ (List.append_nil _)

theorem deliveries_of_finished (finished : session.finished = true) (reads : List StreamRead) :
    session.deliveries reads = [] := by
  induction reads with
  | nil => rfl
  | cons read reads ih =>
    have stays : session.step read = (none, session) := if_pos finished
    rw [deliveries, stays]
    exact ih

/-- A session of which nothing was read yet. -/
structure Fresh (session : SseSession) : Prop where
  silent : session.silent = false
  finished : session.finished = false

theorem Fresh.follows (fresh : session.Fresh) (reads : List StreamRead) :
    session.Follows reads (session.after reads) := by
  induction reads using List.reverseRecOn with
  | nil =>
    exact ⟨rfl, rfl, iff_of_false (by simp [after, fresh.finished]) not_isOver_nil,
      fun _ => iff_of_false (by simp [after, fresh.silent]) not_quiet_nil⟩
  | append_singleton reads read ih =>
    rw [after, List.foldl_append]
    exact ih.step read

/-- What one more read adds to the deliveries. -/
theorem Fresh.deliveries_concat_eq (fresh : session.Fresh) (reads : List StreamRead)
    (read : StreamRead) (delivery : Delivery) :
    session.deliveries (reads ++ [read]) = session.deliveries reads ++ [delivery] ↔
      ¬ IsOver reads ∧ session.Answers reads read delivery := by
  rw [deliveries_concat, List.append_cancel_left_eq, ← (fresh.follows reads).answer]
  cases ((session.after reads).step read).1 <;> simp

/-- Nothing is delivered any more once the session is over. -/
theorem Fresh.deliveries_of_over (fresh : session.Fresh) (ended : IsOver reads)
    (more : List StreamRead) : session.deliveries (reads ++ more) = session.deliveries reads := by
  have finished : (session.after reads).finished = true := (fresh.follows reads).finished.2 ended
  rw [deliveries_append, deliveries_of_finished finished, List.append_nil]

/-- An error or the end ends the session. -/
theorem Answers.ends (answers : session.Answers reads read delivery)
    (last : ∀ message, delivery ≠ .message message) : Ends reads read := by
  cases answers with
  | event _ | degraded _ => exact absurd rfl (last _)
  | idle quiet => exact .silence quiet
  | broken detail => exact .broken detail
  | ended => exact .ended

theorem Answers.of_degraded {reason : String}
    (answers : session.Answers reads read (.message (.degraded reason))) :
    ¬ Quiet reads ∧ read = .silence := by
  cases answers with
  | event carries => cases carries
  | degraded loud => exact ⟨loud, rfl⟩

theorem Fresh.over_of_mem (fresh : session.Fresh) (mem : delivery ∈ session.deliveries reads)
    (last : ∀ message, delivery ≠ .message message) : IsOver reads := by
  induction reads using List.reverseRecOn with
  | nil => cases mem
  | append_singleton reads read ih =>
    rw [deliveries_concat] at mem
    rw [isOver_concat]
    rcases List.mem_append.1 mem with mem | mem
    · exact .inl (ih mem)
    · have answers := (fresh.follows reads).answer.1 (Option.mem_toList.1 mem)
      exact .inr (answers.2.ends last)

end SseSession

namespace SseChannel

variable {channel : SseChannel} {reply : HttpReply} {session : SseSession}

theorem session_of_connect (opened : channel.connect reply = .ok session) :
    session.Fresh ∧ session.staleAfter = channel.staleAfter.max (.ofMilliseconds 1) ∧
      session.origin = channel.target.origin "sse" := by
  unfold connect at opened
  cases accepted : reply.accepted with
  | error error =>
    rw [accepted] at opened
    cases opened
  | ok response =>
    rw [accepted] at opened
    cases opened
    exact ⟨⟨rfl, rfl⟩, rfl, rfl⟩

/-- A session delivers for each read what its protocol says, and nothing once it is over: a message
for an event that carries one, a doubt for a silence unless there was one since the last event, and
else an error, as when the stream breaks, or the end. So nothing comes after an error or the end,
and between two doubts there is an event. -/
theorem session_protocol (opened : channel.connect reply = .ok session) :
    session.staleAfter = channel.staleAfter.max (.ofMilliseconds 1) ∧
    session.origin = channel.target.origin "sse" ∧
    session.deliveries [] = [] ∧
    (∀ reads read, ∃ answer : Option Delivery,
      session.deliveries (reads ++ [read]) = session.deliveries reads ++ answer.toList ∧
        ∀ delivery, answer = some delivery ↔
          ¬ IsOver reads ∧ session.Answers reads read delivery) ∧
    (∀ reads more, ∀ delivery ∈ session.deliveries reads,
      (∀ message, delivery ≠ .message message) →
        session.deliveries (reads ++ more) = session.deliveries reads) ∧
    ∀ before first between second why again,
      session.deliveries (before ++ [first]) =
        session.deliveries before ++ [.message (.degraded why)] →
      session.deliveries ((before ++ first :: between) ++ [second]) =
        session.deliveries (before ++ first :: between) ++ [.message (.degraded again)] →
      ∃ event, .event event ∈ between := by
  obtain ⟨fresh, staleAfter, origin⟩ := session_of_connect opened
  refine ⟨staleAfter, origin, rfl, ?_, ?_, ?_⟩
  · intro reads read
    exact ⟨_, session.deliveries_concat reads read, fun _ => (fresh.follows reads).answer⟩
  · intro reads more delivery mem last
    exact fresh.deliveries_of_over (fresh.over_of_mem mem last) more
  · intro before first between second why again doubted doubtedAgain
    obtain ⟨-, doubt⟩ := (fresh.deliveries_concat_eq ..).1 doubted
    obtain ⟨-, doubtAgain⟩ := (fresh.deliveries_concat_eq ..).1 doubtedAgain
    obtain ⟨-, rfl⟩ := doubt.of_degraded
    obtain ⟨loud, rfl⟩ := doubtAgain.of_degraded
    by_contra none
    exact loud ⟨before, between, rfl, fun e he => none ⟨e, he⟩⟩

/-- An event that carries no message still breaks the silence, but a second silence without one ends
the session, whatever comes later. -/
theorem session_protocol_two_silences :
    let channel : SseChannel := { target := { url := "" } }
    let session : SseSession :=
      { staleAfter := channel.staleAfter.max (.ofMilliseconds 1)
        origin := channel.target.origin "sse" }
    let reads : List StreamRead :=
      [.silence, .event ⟨"ping", "{}", ""⟩, .silence, .silence]
    channel.connect (.ok { status := 200, body := .ok [] }) = .ok session ∧
      ∀ more, session.deliveries (reads ++ more) =
        [.message (.degraded "no events for 60000 ms"),
          .message (.degraded "no events for 60000 ms"),
          .failed (.idle (.ofMilliseconds 60000))] := by
  intro channel session reads
  have opened : channel.connect (.ok { status := 200, body := .ok [] }) = .ok session := rfl
  refine ⟨opened, fun more => ?_⟩
  obtain ⟨-, -, -, -, nothingMore, -⟩ := session_protocol opened
  have last : Delivery.failed (.idle (.ofMilliseconds 60000)) ∈ session.deliveries reads := by
    decide +kernel
  rw [nothingMore reads more _ last nofun]
  decide +kernel

end SseChannel

end FeatureFlags
