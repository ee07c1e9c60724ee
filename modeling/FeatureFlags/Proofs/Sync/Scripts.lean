import FeatureFlags.Channel.Script
import FeatureFlags.Proofs.Sync.Moments
import FeatureFlags.Proofs.Sync.Reports

/-!
# A driver on a script

A script tells what a driver will hear: of each session that it is opened or why it is not, each of
its deliveries up to the first one that ends it, and behind the last session that there is none
(`transcript`). A writer on the script lets its driver hear just that, however often and whenever it
is asked whether there is something to do (`Follows.attendAll`), and it gets on with it as long as
anything is to come (`exists_progress`).
-/

namespace FeatureFlags

open Writer (Moment LogEntry heard handed)

/-- What a driver hears of the items of a session, followed by what comes after the session. -/
def ScriptItem.transcript (after : List DriverInput) : List ScriptItem → List DriverInput
  | [] => .ended :: after
  | .deliver (.message message) :: rest => .message message :: transcript after rest
  | .deliver (.failed error) :: _ => .failed error :: after
  | .deliver .ended :: _ => .ended :: after
  | .sleep _ :: rest => transcript after rest
  | .pend :: _ => []

namespace ScriptedSession

/-- What a driver hears of a session that it asks for, followed by what comes after the session. -/
def hearing (after : List DriverInput) (session : ScriptedSession) : List DriverInput :=
  match session.outcome with
  | .error error => .failed error :: after
  | .ok items => .opened :: ScriptItem.transcript after items

/-- Why no session can be opened behind the last one. -/
def exhausted : SyncError := .unavailable "script exhausted"

/-- What a driver hears of a script, and of so many attempts to open a session behind the last
one. -/
def transcript (beyond : Nat) : List ScriptedSession → List DriverInput
  | [] => (List.replicate beyond [.waited, .failed exhausted]).flatten
  | session :: sessions => .waited :: session.hearing (transcript beyond sessions)

theorem transcript_succ_nil (beyond : Nat) :
    transcript (beyond + 1) [] = .waited :: .failed exhausted :: transcript beyond [] := rfl

end ScriptedSession

open ScriptedSession (exhausted transcript)

namespace ScriptChannel

/-- What a driver in some phase is still to hear. -/
def ahead (beyond : Nat) (phase : DriverPhase) (channel : ScriptChannel) : List DriverInput :=
  match phase with
  | .waiting _ => transcript beyond channel.sessions
  | .connecting =>
    match channel.sessions with
    | [] => .failed exhausted :: transcript beyond []
    | session :: sessions => session.hearing (transcript beyond sessions)
  | .streaming => ScriptItem.transcript (transcript beyond channel.sessions) channel.items
  | .terminated => []

/-- When the wait is ended, the driver hears it, and an attempt behind the last session may count. -/
theorem ahead_waiting (channel : ScriptChannel) :
    ∃ extra, ∀ beyond delay,
      channel.ahead (extra + beyond) (.waiting delay) =
        .waited :: channel.ahead beyond .connecting := by
  cases hsessions : channel.sessions with
  | nil =>
    refine ⟨1, fun beyond delay => ?_⟩
    simp only [ahead, hsessions, Nat.add_comm 1, ScriptedSession.transcript_succ_nil]
  | cons session sessions =>
    refine ⟨0, fun beyond delay => ?_⟩
    simp only [ahead, hsessions, Nat.zero_add, transcript]

/-- A wait that has begun before is not ended before its time. -/
theorem lt_of_wait {channel : ScriptChannel} {now milliseconds due : Nat}
    (waits : channel.wait now milliseconds = some due) :
    ∀ due', channel.wake = some due' → now < due' := by
  intro due' begun
  unfold wait at waits
  rw [begun] at waits
  dsimp only [Option.getD_some] at waits
  split at waits
  · cases waits
  · omega

/-- The channel opens sessions as the script says, and says until when it has to wait. -/
theorem connect_ahead (now : Nat) (channel : ScriptChannel) :
    (∃ error later, channel.connect now = (.ready (.error error), later) ∧
      ∀ beyond, channel.ahead beyond .connecting =
        .failed error :: transcript beyond later.sessions) ∨
    (∃ later, channel.connect now = (.ready (.ok ()), later) ∧
      ∀ beyond, channel.ahead beyond .connecting = .opened :: later.ahead beyond .streaming) ∨
    (∃ due later, channel.connect now = (.pending (some due), later) ∧
      later.sessions = channel.sessions ∧ later.wake = some due ∧
      ∀ due', channel.wake = some due' → now < due') := by
  unfold connect
  dsimp only
  -- The channel also notes when it was asked, which has no bearing on its answer.
  generalize hnoted : (if channel.wake.isNone then
    { channel with opens := now :: channel.opens } else channel) = noted
  obtain ⟨hsessions, hwake⟩ : noted.sessions = channel.sessions ∧ noted.wake = channel.wake := by
    subst hnoted
    split <;> exact ⟨rfl, rfl⟩
  simp only [ahead, ← hsessions, ← hwake]
  cases hnext : noted.sessions with
  | nil => exact .inl ⟨exhausted, noted, rfl, fun beyond => by rw [hnext]⟩
  | cons session sessions =>
    dsimp only
    split
    · rename_i due hwait
      exact .inr (.inr ⟨due, _, rfl, rfl, rfl, lt_of_wait hwait⟩)
    · cases houtcome : session.outcome with
      | error error =>
        exact .inl ⟨error, _, rfl, fun beyond => by rw [ScriptedSession.hearing, houtcome]⟩
      | ok items =>
        exact .inr (.inl ⟨_, rfl, fun beyond => by rw [ScriptedSession.hearing, houtcome]⟩)

/-- The channel goes on with a session as the script says, and says until when it has to wait. -/
theorem next_ahead (now : Nat) (channel : ScriptChannel) :
    (∃ message later, channel.next now = (.ready (.message message), later) ∧
      ∀ beyond, channel.ahead beyond .streaming =
        .message message :: later.ahead beyond .streaming) ∨
    (∃ delivery later, channel.next now = (.ready delivery, later) ∧
      (delivery = .ended ∨ ∃ error, delivery = .failed error) ∧
      ∀ beyond, channel.ahead beyond .streaming =
        .ofDelivery delivery :: transcript beyond later.sessions) ∨
    (∃ wake later, channel.next now = (.pending wake, later) ∧
      (∀ beyond, later.ahead beyond .streaming = channel.ahead beyond .streaming) ∧
      (wake = none → ∀ beyond, channel.ahead beyond .streaming = [])) := by
  have general : ∀ (items : List ScriptItem) (channel : ScriptChannel),
      (∃ message later, next.go now items channel = (.ready (.message message), later) ∧
        ∀ beyond, ScriptItem.transcript (transcript beyond channel.sessions) items =
          .message message :: later.ahead beyond .streaming) ∨
      (∃ delivery later, next.go now items channel = (.ready delivery, later) ∧
        (delivery = .ended ∨ ∃ error, delivery = .failed error) ∧
        ∀ beyond, ScriptItem.transcript (transcript beyond channel.sessions) items =
          .ofDelivery delivery :: transcript beyond later.sessions) ∨
      (∃ wake later, next.go now items channel = (.pending wake, later) ∧
        (∀ beyond, later.ahead beyond .streaming =
          ScriptItem.transcript (transcript beyond channel.sessions) items) ∧
        (wake = none →
          ∀ beyond, ScriptItem.transcript (transcript beyond channel.sessions) items = [])) := by
    intro items
    induction items with
    | nil => exact fun channel => .inr (.inl ⟨.ended, _, rfl, .inl rfl, fun _ => rfl⟩)
    | cons item rest ih =>
      intro channel
      cases item with
      | deliver delivery =>
        cases delivery with
        | message message => exact .inl ⟨message, _, rfl, fun _ => rfl⟩
        | failed error =>
          exact .inr (.inl ⟨.failed error, _, rfl, .inr ⟨error, rfl⟩, fun _ => rfl⟩)
        | ended => exact .inr (.inl ⟨.ended, _, rfl, .inl rfl, fun _ => rfl⟩)
      | sleep milliseconds =>
        unfold next.go
        split
        · exact .inr (.inr ⟨_, _, rfl, fun _ => rfl, nofun⟩)
        · exact ih { channel with wake := none }
      | pend => exact .inr (.inr ⟨none, _, rfl, fun _ => rfl, fun _ _ => rfl⟩)
  exact general channel.items channel

theorem next_go_with_items (now : Nat) (items old : List ScriptItem) (channel : ScriptChannel) :
    next.go now items { channel with items := old } = next.go now items channel := by
  induction items generalizing channel with
  | nil => rfl
  | cons item items ih =>
    cases item with
    | deliver delivery => rfl
    | sleep milliseconds =>
      unfold next.go
      have same : wait { channel with items := old } now milliseconds =
          channel.wait now milliseconds := rfl
      rw [same]
      split
      · rfl
      · exact ih { channel with wake := none }
    | pend => rfl

/-- Behind a wait that is ended, a session goes on with the items that follow. -/
theorem next_of_sleep {channel : ScriptChannel} {milliseconds : Nat} {rest : List ScriptItem}
    (items_eq : channel.items = .sleep milliseconds :: rest) {now : Nat}
    (ended : channel.wait now milliseconds = none) :
    channel.next now = next now { channel with items := rest, wake := none } := by
  rw [next, next, items_eq, next.go, ended]
  exact (next_go_with_items now rest rest { channel with wake := none }).symm

theorem wait_of_le {channel : ScriptChannel} {now later milliseconds : Nat}
    (ended : channel.wait now milliseconds = none) (le : now ≤ later) :
    channel.wait later milliseconds = none := by
  unfold wait at ended ⊢
  cases hwake : channel.wake with
  | none => simp_all
  | some due =>
    simp only [hwake, Option.getD_some, ite_eq_left_iff] at ended ⊢
    intro early
    exact ended fun due_le => early (Nat.le_trans due_le le)

end ScriptChannel

namespace SyncDriver

variable {driver : SyncDriver}

theorem phase_step_opened (connecting : driver.phase = .connecting) (draw : Binary64) :
    (driver.step draw .opened).2.phase = .streaming := by
  unfold step
  rw [connecting]

theorem phase_step_message (streaming : driver.phase = .streaming) (draw : Binary64)
    (message : SyncMessage) : (driver.step draw (.message message)).2.phase = .streaming := by
  unfold step
  rw [streaming]
  exact (phase_receive driver message).trans streaming

/-- Behind the end of a session a driver waits for the next one, unless it is terminated. -/
theorem phase_step_of_broken (draw : Binary64) (input : DriverInput)
    (expected : driver.phase.expects input = true)
    (broken : input = .ended ∨ ∃ error, input = .failed error) :
    (∃ delay, (driver.step draw input).2.phase = .waiting delay) ∨
      (driver.step draw input).2.phase = .terminated := by
  have stepping := driver.step_stepping draw input
  generalize driver.step draw input = result at stepping ⊢
  cases stepping with
  | ignores unexpected =>
    rw [unexpected] at expected
    cases expected
  | stops _ _ => exact .inr rfl
  | connects _ => simp at broken
  | opens _ => simp at broken
  | hears _ => simp at broken
  | retries _ _ _ => exact .inl ⟨_, rfl⟩
  | givesUp _ _ _ => exact .inr rfl
  | refuses _ _ _ => exact .inr rfl

end SyncDriver

namespace Writer

/-- How a writer on a script stands to it when its driver has heard so much. -/
structure Follows (sessions : List ScriptedSession) (beyond : Nat) (heard : List DriverInput)
    (writer : Writer ScriptChannel) : Prop where
  uncancelled : writer.cancelled = false
  isPrefix : ∀ more, heard <+: transcript (beyond + more) sessions
  eq_append : writer.driver.phase ≠ .terminated → ∀ more,
    transcript (beyond + more) sessions =
      heard ++ writer.channel.ahead more writer.driver.phase

namespace Follows

variable {sessions : List ScriptedSession} {beyond : Nat} {heard : List DriverInput}
  {writer next : Writer ScriptChannel} {now : Nat}

theorem start (sessions : List ScriptedSession) (policy : RetryPolicy) (draws : Nat → Binary64) :
    Follows sessions 0 [] { Writer.new ({ sessions } : ScriptChannel) policy with draws } :=
  ⟨rfl, fun _ => List.nil_prefix, fun _ more => by rw [Nat.zero_add]; rfl⟩

/-- The driver hears the next thing that is ahead of it. -/
theorem extend (follows : Follows sessions beyond heard writer) {input : DriverInput}
    (running : writer.driver.phase ≠ .terminated) (extra : Nat)
    (uncancelled : next.cancelled = false) (rest : Nat → List DriverInput)
    (ahead_eq : ∀ more, writer.channel.ahead (extra + more) writer.driver.phase =
      input :: rest more)
    (rest_eq : next.driver.phase ≠ .terminated →
      ∀ more, rest more = next.channel.ahead more next.driver.phase) :
    Follows sessions (beyond + extra) (heard ++ [input]) next := by
  have whole : ∀ more, transcript (beyond + extra + more) sessions =
      (heard ++ [input]) ++ rest more := fun more => by
    rw [Nat.add_assoc, follows.eq_append running, ahead_eq, List.append_cons]
  refine ⟨uncancelled, fun more => ?_, fun going more => ?_⟩
  · rw [whole]
    exact List.prefix_append _ _
  · rw [whole, rest_eq going]

/-- Nothing is lost while the writer has to wait. -/
theorem wait (follows : Follows sessions beyond heard writer) {channel : ScriptChannel}
    (ahead_eq : ∀ more, channel.ahead more writer.driver.phase =
      writer.channel.ahead more writer.driver.phase) :
    Follows sessions beyond heard { writer with channel } :=
  ⟨follows.uncancelled, follows.isPrefix, fun running more =>
    (follows.eq_append running more).trans (congrArg _ (ahead_eq more).symm)⟩

/-- Whenever it is asked, a writer goes on as the script says. -/
theorem attend (follows : Follows sessions beyond heard writer) (now : Nat) :
    ∃ extra, Follows sessions (beyond + extra)
      (heard ++ Writer.heard (writer.attend (.poll now)).1.toList)
      (writer.attend (.poll now)).2 := by
  have polling := poll_polling now writer
  generalize hpoll : writer.poll now = result at polling
  cases polling with
  | ended terminated =>
    rw [attend_of_pending hpoll]
    exact ⟨0, (List.append_nil heard).symm ▸ follows⟩
  | cancels _ cancelled =>
    rw [follows.uncancelled] at cancelled
    cases cancelled
  | rests _ waiting early =>
    rw [attend_of_pending hpoll]
    exact ⟨0, (List.append_nil heard).symm ▸ follows⟩
  | @wakes delay _ waiting due =>
    obtain ⟨extra, ahead_eq⟩ := writer.channel.ahead_waiting
    have hstep := SyncDriver.step_waited waiting (writer.draws writer.steps)
    rw [attend_of_ready hpoll]
    refine ⟨extra, follows.extend (by rw [waiting]; nofun) extra follows.uncancelled
      (fun more => writer.channel.ahead more .connecting) (fun more => ?_) fun _ more => ?_⟩
    · rw [waiting, ahead_eq]
    · simp only [feed, hstep]
  | @connects reply channel _ connecting answer =>
    have running : writer.driver.phase ≠ .terminated := by rw [connecting]; nofun
    obtain ⟨error, later, hconnect, ahead_eq⟩ | ⟨later, hconnect, ahead_eq⟩ |
      ⟨due, later, hconnect, sessions_eq, -, -⟩ := writer.channel.connect_ahead now
    · cases answer.symm.trans hconnect
      rw [attend_of_ready hpoll]
      refine ⟨0, follows.extend running 0 follows.uncancelled
        (fun more => transcript more channel.sessions) (fun more => ?_) fun going more => ?_⟩
      · rw [connecting, Nat.zero_add, ahead_eq]
        rfl
      · have hphase := SyncDriver.phase_step_of_broken (writer.draws writer.steps) (.failed error)
          (by rw [connecting]; rfl) (.inr ⟨error, rfl⟩)
        obtain ⟨delay, waiting⟩ := hphase.resolve_right going
        exact (congrArg (channel.ahead more) waiting).symm
    · cases answer.symm.trans hconnect
      rw [attend_of_ready hpoll]
      refine ⟨0, follows.extend running 0 follows.uncancelled
        (fun more => channel.ahead more .streaming) (fun more => ?_) fun _ more => ?_⟩
      · rw [connecting, Nat.zero_add, ahead_eq]
        rfl
      · exact (congrArg (channel.ahead more)
          (SyncDriver.phase_step_opened connecting (writer.draws writer.steps))).symm
    · cases answer.symm.trans hconnect
      rw [attend_of_pending hpoll]
      refine ⟨0, (List.append_nil heard).symm ▸ follows.wait fun more => ?_⟩
      rw [connecting]
      simp only [ScriptChannel.ahead, sessions_eq]
  | @streams reply channel _ streaming answer =>
    have running : writer.driver.phase ≠ .terminated := by rw [streaming]; nofun
    obtain ⟨message, later, hnext, ahead_eq⟩ | ⟨delivery, later, hnext, ending, ahead_eq⟩ |
      ⟨wake, later, hnext, ahead_eq, -⟩ := writer.channel.next_ahead now
    · cases answer.symm.trans hnext
      rw [attend_of_ready hpoll]
      refine ⟨0, follows.extend running 0 follows.uncancelled
        (fun more => channel.ahead more .streaming) (fun more => ?_) fun _ more => ?_⟩
      · rw [streaming, Nat.zero_add, ahead_eq]
        rfl
      · exact (congrArg (channel.ahead more)
          (SyncDriver.phase_step_message streaming (writer.draws writer.steps) message)).symm
    · cases answer.symm.trans hnext
      rw [attend_of_ready hpoll]
      refine ⟨0, follows.extend running 0 follows.uncancelled
        (fun more => transcript more channel.sessions) (fun more => ?_) fun going more => ?_⟩
      · rw [streaming, Nat.zero_add, ahead_eq]
      · have hphase := SyncDriver.phase_step_of_broken (writer.draws writer.steps)
          (.ofDelivery delivery)
          (by rw [streaming]; obtain rfl | ⟨error, rfl⟩ := ending <;> rfl)
          (by
            obtain rfl | ⟨error, rfl⟩ := ending
            · exact .inl rfl
            · exact .inr ⟨error, rfl⟩)
        obtain ⟨delay, waiting⟩ := hphase.resolve_right going
        exact (congrArg (channel.ahead more) waiting).symm
    · cases answer.symm.trans hnext
      rw [attend_of_pending hpoll]
      refine ⟨0, (List.append_nil heard).symm ▸ follows.wait fun more => ?_⟩
      rw [streaming]
      exact ahead_eq more

/-- However often and whenever it is asked, a writer follows the script. -/
theorem attendAll (follows : Follows sessions beyond heard writer) (times : List Nat) :
    ∃ extra, Follows sessions (beyond + extra)
      (heard ++ Writer.heard (writer.attendAll (times.map .poll)).1)
      (writer.attendAll (times.map .poll)).2 := by
  induction times generalizing writer beyond heard with
  | nil => exact ⟨0, (List.append_nil heard).symm ▸ follows⟩
  | cons now times ih =>
    obtain ⟨extra, hfirst⟩ := follows.attend now
    obtain ⟨more, hrest⟩ := ih hfirst
    refine ⟨extra + more, ?_⟩
    rw [List.map_cons, attendAll_cons, heard_append, ← Nat.add_assoc, ← List.append_assoc]
    exact hrest

/-- If nothing is to come, the driver is terminated or has heard the whole script. -/
theorem eq_transcript_of_pending (follows : Follows sessions beyond heard writer)
    (ended : (writer.poll now).1 = .pending none) :
    writer.driver.phase = .terminated ∨ ∀ more, heard = transcript (beyond + more) sessions := by
  have polling := poll_polling now writer
  generalize writer.poll now = result at polling ended
  cases polling with
  | ended terminated => exact .inl terminated
  | cancels _ _ => cases ended
  | rests _ _ _ => cases ended
  | wakes _ _ _ => cases ended
  | @connects reply channel _ connecting answer =>
    obtain ⟨_, _, hconnect, -⟩ | ⟨_, hconnect, -⟩ | ⟨_, _, hconnect, -⟩ :=
      writer.channel.connect_ahead now <;>
    · cases answer.symm.trans hconnect
      cases ended
  | @streams reply channel _ streaming answer =>
    obtain ⟨_, _, hnext, -⟩ | ⟨_, _, hnext, -⟩ | ⟨wake, _, hnext, -, nothing⟩ :=
      writer.channel.next_ahead now
    · cases answer.symm.trans hnext
      cases ended
    · cases answer.symm.trans hnext
      cases ended
    · cases answer.symm.trans hnext
      cases ended
      refine .inr fun more => ?_
      rw [follows.eq_append (by rw [streaming]; nofun), streaming, nothing rfl, List.append_nil]

end Follows

/-! ## Progress -/

/-- When it is asked at some times, none of them too early, the writer finds something to do, or
that nothing is to come. -/
def GoesOn (earliest : Nat) (writer : Writer ScriptChannel) : Prop :=
  ∃ (times : List Nat) (now : Nat), (∀ time ∈ times, earliest ≤ time) ∧ earliest ≤ now ∧
    (writer.attendAll (times.map .poll)).1 = [] ∧
      let reached := (writer.attendAll (times.map .poll)).2
      (∃ input, (reached.poll now).1 = .ready input) ∨ (reached.poll now).1 = .pending none

namespace GoesOn

variable {writer next : Writer ScriptChannel} {earliest later : Nat}

theorem of_ready (input : DriverInput) (ready : (writer.poll earliest).1 = .ready input) :
    GoesOn earliest writer :=
  ⟨[], earliest, nofun, Nat.le_refl _, rfl, .inl ⟨input, ready⟩⟩

theorem of_ended (ended : (writer.poll earliest).1 = .pending none) : GoesOn earliest writer :=
  ⟨[], earliest, nofun, Nat.le_refl _, rfl, .inr ended⟩

theorem mono (h : GoesOn later writer) (le : earliest ≤ later) : GoesOn earliest writer := by
  obtain ⟨times, now, htimes, hnow, hlog, hfound⟩ := h
  exact ⟨times, now, fun time hmem => Nat.le_trans le (htimes time hmem), Nat.le_trans le hnow,
    hlog, hfound⟩

theorem of_pending {wake : Option Nat} (pending : writer.poll earliest = (.pending wake, next))
    (h : GoesOn earliest next) : GoesOn earliest writer := by
  obtain ⟨times, now, htimes, hnow, hlog, hfound⟩ := h
  refine ⟨earliest :: times, now, ?_, hnow, ?_, ?_⟩
  · exact List.forall_mem_cons.2 ⟨Nat.le_refl _, htimes⟩
  · rw [List.map_cons, attendAll_cons, attend_of_pending pending]
    exact hlog
  · rw [List.map_cons, attendAll_cons, attend_of_pending pending]
    exact hfound

/-- A writer goes on like another one that finds the same from then on. -/
theorem congr {other : Writer ScriptChannel}
    (same : ∀ now, earliest ≤ now → writer.poll now = other.poll now)
    (h : GoesOn earliest other) : GoesOn earliest writer := by
  obtain ⟨times, now, htimes, hnow, hlog, hfound⟩ := h
  cases times with
  | nil =>
    refine ⟨[], now, htimes, hnow, rfl, ?_⟩
    simp only [List.map_nil, Writer.attendAll, same now hnow]
    exact hfound
  | cons time times =>
    have first : writer.attend (.poll time) = other.attend (.poll time) := by
      simp only [Writer.attend, same time (htimes time List.mem_cons_self)]
    refine ⟨time :: times, now, htimes, hnow, ?_, ?_⟩
    · rw [List.map_cons, attendAll_cons, first]
      exact hlog
    · rw [List.map_cons, attendAll_cons, first]
      exact hfound

theorem poll_of_streaming (uncancelled : writer.cancelled = false)
    (streaming : writer.driver.phase = .streaming) (channel : ScriptChannel) (now : Nat) :
    poll now { writer with channel } = ((channel.next now).1.map .ofDelivery,
      { writer with channel := (channel.next now).2 }) := by
  unfold poll isFinished
  simp only [streaming, uncancelled]
  rfl

theorem poll_of_connecting (uncancelled : writer.cancelled = false)
    (connecting : writer.driver.phase = .connecting) (channel : ScriptChannel) (now : Nat) :
    poll now { writer with channel } = ((channel.connect now).1.map .ofOpening,
      { writer with channel := (channel.connect now).2 }) := by
  unfold poll isFinished
  simp only [connecting, uncancelled]
  rfl

theorem poll_of_waiting {delay : Duration} (uncancelled : writer.cancelled = false)
    (waiting : writer.driver.phase = .waiting delay) :
    writer.poll writer.due = (.ready .waited, writer) := by
  unfold poll isFinished
  simp only [waiting, uncancelled, Nat.le_refl, if_true]
  rfl

/-- Items that take no time are gone through, and behind those that do the session goes on. -/
theorem of_streaming (uncancelled : writer.cancelled = false)
    (streaming : writer.driver.phase = .streaming) (channel : ScriptChannel) (earliest : Nat) :
    GoesOn earliest { writer with channel } := by
  have polled := poll_of_streaming uncancelled streaming
  generalize hitems : channel.items = items
  induction items generalizing channel earliest with
  | nil =>
    refine of_ready .ended ?_
    rw [polled, ScriptChannel.next, hitems]
    rfl
  | cons item rest ih =>
    cases item with
    | deliver delivery =>
      refine of_ready (.ofDelivery delivery) ?_
      rw [polled, ScriptChannel.next, hitems]
      rfl
    | pend =>
      refine of_ended ?_
      rw [polled, ScriptChannel.next, hitems]
      rfl
    | sleep milliseconds =>
      have behind := fun later => ih { channel with items := rest, wake := none } later rfl
      cases hwait : channel.wait earliest milliseconds with
      | none =>
        refine congr (fun now le => ?_) (behind earliest)
        rw [polled, polled,
          ScriptChannel.next_of_sleep hitems (ScriptChannel.wait_of_le hwait le)]
      | some due =>
        have waits : poll earliest { writer with channel } = (.pending (some due),
            { writer with channel := { channel with wake := some due } }) := by
          rw [polled, ScriptChannel.next, hitems, ScriptChannel.next.go, hwait, ← hitems]
          rfl
        refine of_pending waits (mono (congr (fun now le => ?_) (behind (max earliest due)))
          (Nat.le_max_left earliest due))
        have asleep : ({ channel with wake := some due } : ScriptChannel).items =
            .sleep milliseconds :: rest := hitems
        have ended : ScriptChannel.wait { channel with wake := some due } now milliseconds = none :=
          if_pos (Nat.le_trans (Nat.le_max_right earliest due) le)
        have gone := ScriptChannel.next_of_sleep asleep ended
        rw [polled, polled, gone]

/-- As long as anything is to come, a writer finds it sooner or later. -/
theorem of_writer (earliest : Nat) (writer : Writer ScriptChannel) : GoesOn earliest writer := by
  have polling := poll_polling earliest writer
  generalize hpoll : writer.poll earliest = result at polling
  cases polling with
  | ended _ => exact of_ended (congrArg Prod.fst hpoll)
  | cancels _ _ => exact of_ready _ (congrArg Prod.fst hpoll)
  | rests uncancelled waiting early =>
    refine mono (of_ready .waited ?_) (Nat.le_of_not_le early)
    exact congrArg Prod.fst (poll_of_waiting uncancelled waiting)
  | wakes _ _ _ => exact of_ready _ (congrArg Prod.fst hpoll)
  | @connects reply channel uncancelled connecting answer =>
    obtain ⟨_, _, hconnect, -⟩ | ⟨_, hconnect, -⟩ | ⟨due, later, hconnect, -, hwake, -⟩ :=
      writer.channel.connect_ahead earliest
    · cases answer.symm.trans hconnect
      exact of_ready _ (congrArg Prod.fst hpoll)
    · cases answer.symm.trans hconnect
      exact of_ready _ (congrArg Prod.fst hpoll)
    · cases answer.symm.trans hconnect
      have polled := poll_of_connecting uncancelled connecting channel (max earliest due)
      suffices behind : GoesOn (max earliest due) { writer with channel } from
        of_pending hpoll (behind.mono (Nat.le_max_left _ _))
      -- The wait has begun by now, so it is ended when it is due.
      obtain ⟨_, _, hagain, -⟩ | ⟨_, hagain, -⟩ | ⟨_, _, hagain, -, -, early⟩ :=
        channel.connect_ahead (max earliest due)
      · exact of_ready _ ((congrArg Prod.fst polled).trans (by rw [hagain]; rfl))
      · exact of_ready _ ((congrArg Prod.fst polled).trans (by rw [hagain]; rfl))
      · exact absurd (early due hwake) (Nat.not_lt_of_le (Nat.le_max_right _ _))
  | streams uncancelled streaming _ =>
    exact of_streaming uncancelled streaming writer.channel earliest

end GoesOn

/-- The driver of a writer hears as much as one likes, unless nothing is to come. -/
theorem exists_progress (writer : Writer ScriptChannel) (n : Nat) :
    ∃ times : List Nat,
      let reached := writer.attendAll (times.map .poll)
      n ≤ (heard reached.1).length ∨ ∃ now, (reached.2.poll now).1 = .pending none := by
  induction n with
  | zero => exact ⟨[], .inl (Nat.zero_le _)⟩
  | succ n ih =>
    obtain ⟨times, enough | ended⟩ := ih
    · obtain ⟨more, now, -, -, hlog, ⟨input, ready⟩ | ended⟩ :=
        GoesOn.of_writer 0 (writer.attendAll (times.map .poll)).2
      · refine ⟨times ++ (more ++ [now]), .inl ?_⟩
        rw [List.map_append, List.map_append, attendAll_append, attendAll_append, heard_append,
          heard_append, hlog, List.map_singleton, attendAll_cons,
          attend_of_ready (Prod.ext ready rfl)]
        simpa [heard, attendAll] using enough
      · refine ⟨times ++ more, .inr ⟨now, ?_⟩⟩
        rw [List.map_append, attendAll_append]
        exact ended
    · exact ⟨times, .inr ended⟩

/-- The driver of a writer on a script neither loses nor repeats nor reorders what it hears. However
often and whenever the writer is asked whether there is something to do, its driver hears the script
from its beginning on, in order, and hands out just what is to be told of what it has heard. It does
not stop before the end of the script, unless it has reported a fatal failure or its source told it
of a cancellation, and it gets as far as one likes. If somebody cancels it, at whatever moment, then
what it hands out is a prefix of what it would have handed out otherwise. A writer that runs up to
some time by itself is one that is asked at times of its own choice, and one that is cancelled at
some time hands out a prefix of what it would have handed out up to that time or any later one. -/
theorem updates_in_order (policy : RetryPolicy) (draws : Nat → Binary64)
    (sessions : List ScriptedSession) :
    let writer : Writer ScriptChannel := { Writer.new { sessions } policy with draws }
    (∀ times : List Nat,
      let log := (writer.attendAll (times.map .poll)).1
      let reached := (writer.attendAll (times.map .poll)).2
      (handed log).map (·.2.event) = DriverInput.reports policy [] (heard log) ∧
      ∃ beyond, heard log <+: transcript beyond sessions ∧
        ∀ now, (reached.poll now).1 = .pending none →
          heard log = transcript beyond sessions ∨
          (∃ earlier time message, handed log = earlier ++ [(time, .fatal message)]) ∨
          ∃ earlier last, heard log = earlier ++ [last] ∧ last.isCancellation = true) ∧
    (∀ n, ∃ times : List Nat,
      let log := (writer.attendAll (times.map .poll)).1
      let reached := (writer.attendAll (times.map .poll)).2
      n ≤ (heard log).length ∨ ∃ now, (reached.poll now).1 = .pending none) ∧
    (∀ before after : List Moment,
      handed (writer.attendAll (before ++ .cancel :: after)).1 <+:
        handed (writer.attendAll (before ++ after)).1) ∧
    (∀ last,
      let ran := writer.runUntil record last 0 []
      (∃ times : List Nat, ran.1 = handed (writer.attendAll (times.map .poll)).1) ∧
      ∀ cancelAt, cancelAt ≤ last + 1 → (writer.runCancelled record cancelAt []).1 <+: ran.1) := by
  intro writer
  refine ⟨fun times => ⟨?_, ?_⟩, exists_progress writer, handed_cancel_isPrefix writer,
    fun last => ⟨?_, fun cancelAt within => runCancelled_isPrefix writer within⟩⟩
  · obtain ⟨turns, -, hheard, hhanded⟩ := exists_run_of_attendAll writer (times.map .poll)
    obtain ⟨hevents, -⟩ := SyncDriver.events_run (.start policy) turns
    calc (handed (writer.attendAll (times.map .poll)).1).map (·.2.event)
      _ = ((handed (writer.attendAll (times.map .poll)).1).map (·.2)).map (·.event) := by
        rw [List.map_map]
        rfl
      _ = DriverInput.reports policy [] (heard (writer.attendAll (times.map .poll)).1) := by
        rw [hhanded, hheard]
        exact hevents
  · obtain ⟨beyond, follows⟩ := (Follows.start sessions policy draws).attendAll times
    rw [List.nil_append] at follows
    refine ⟨_, follows.isPrefix 0, fun now ended => ?_⟩
    obtain terminated | whole := follows.eq_transcript_of_pending ended
    · obtain ⟨turns, hdriver, hheard, hhanded⟩ :=
        exists_run_of_attendAll writer (times.map .poll)
      have running : writer.driver.phase ≠ .terminated := nofun
      obtain ⟨earlier, message, hfatal⟩ | cancelled :=
        SyncDriver.fatal_or_cancelled_of_terminated running (hdriver ▸ terminated)
      · rw [hfatal] at hhanded
        obtain ⟨before, last, hlog, -, hlast⟩ := List.map_eq_append_iff.1 hhanded
        obtain ⟨⟨time, emission⟩, rfl, rfl⟩ := List.map_eq_singleton_iff.1 hlast
        exact .inr (.inl ⟨before, time, message, hlog⟩)
      · exact .inr (.inr (hheard ▸ cancelled))
    · exact .inl (whole 0)
  · obtain ⟨times, -, hran⟩ := Attended.of_runUntil last 0 writer []
    exact ⟨times, hran⟩

/-- A silence, a heartbeat and a reconnection; a cancellation in the wait between the two sessions,
and one at a point of time. -/
theorem updates_in_order_reconnect :
    let policy : RetryPolicy := { maxRetries := 1 }
    let first : SyncPayload := ⟨.full "1", none, ∅⟩
    let second : SyncPayload := ⟨.full "2", none, ∅⟩
    let sessions : List ScriptedSession :=
      [{ outcome := .ok [.deliver (.message (.configuration first)),
          .deliver (.message (.degraded "slow")), .deliver (.message .heartbeat)] },
        { outcome := .ok [.sleep 5, .deliver (.message (.configuration second)), .pend] }]
    let writer : Writer ScriptChannel :=
      { Writer.new { sessions } policy with draws := fun _ => .zero }
    let before := [0, 0, 0, 0, 0, 0]
    let times := before ++ [0, 0, 0, 5, 5]
    let log := (writer.attendAll (times.map .poll)).1
    let reached := (writer.attendAll (times.map .poll)).2
    (reached.poll 5).1 = .pending none ∧
      (handed log).map (·.2.event) =
        [.ready first, .stale "slow", .error ⟨"sync session ended", false⟩, .changed second] ∧
      (∃ beyond, heard log = transcript beyond sessions) ∧
      handed (writer.attendAll (before.map .poll ++ .cancel :: [0, 0, 0, 5, 5].map .poll)).1 <+:
        handed log ∧
      3 ≤ 7 + 1 ∧
      (writer.runCancelled record 3 []).1 <+: (writer.runUntil record 7 0 []).1 := by
  intro policy first second sessions writer before times log reached
  obtain ⟨hall, -, hcancel, hrun⟩ := updates_in_order policy (fun _ => .zero) sessions
  obtain ⟨hevents, beyond, -, hover⟩ := hall times
  have ended : (reached.poll 5).1 = .pending none := by
    decide +kernel
  refine ⟨ended, hevents.trans (by decide +kernel), ⟨beyond, ?_⟩, hcancel _ _, by decide,
    (hrun 7).2 3 (by decide)⟩
  obtain whole | ⟨earlier, time, message, hfatal⟩ | ⟨earlier, last, hlast, cancels⟩ := hover 5 ended
  · exact whole
  · have last : (handed log).getLast?.all
        (fun entry => !entry.2.event.isFatal) = true := by
      decide +kernel
    rw [hfatal, List.getLast?_concat] at last
    cases last
  · have last : (heard log).getLast?.all
        (fun input => !input.isCancellation) = true := by
      decide +kernel
    rw [hlast, List.getLast?_concat, Option.all_some, cancels] at last
    cases last

end Writer

end FeatureFlags
