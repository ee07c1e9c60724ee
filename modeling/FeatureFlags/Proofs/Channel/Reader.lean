import FeatureFlags.Proofs.Channel.Sessions
import FeatureFlags.Proofs.Sync.Moments

/-!
# The writer as a reader of sessions

A writer that is given a memory channel opens its sessions and reads them. Whatever it does at one
moment are a few moves of the channel (`Reads.attend`): to open a session and to begin it go
together, and one that breaks off is dropped. What the application does to the channel in between
are moves as well. So what is known of the sessions of a channel is known of the writer: its driver
hears the messages that were put into the queue, in their order and none of them twice, and all the
others are still there, however many sessions have broken off or could not be opened
(`heard_of_turns`).
-/

namespace FeatureFlags

/-- The message that the driver hears, if it hears one. -/
def DriverInput.message? : DriverInput → Option SyncMessage
  | .message content => some content
  | _ => none

namespace SyncDriver

variable {driver : SyncDriver} {draw : Binary64}

theorem step_opened (connecting : driver.phase = .connecting) (draw : Binary64) :
    (driver.step draw .opened).2.phase = .streaming := by
  unfold step
  rw [connecting]

theorem step_message (streaming : driver.phase = .streaming) (draw : Binary64)
    (message : SyncMessage) : (driver.step draw (.message message)).2.phase = .streaming := by
  unfold step
  rw [streaming]
  exact (driver.phase_receive message).trans streaming

theorem retry_detached (driver : SyncDriver) (message : String) (draw : Binary64) :
    (driver.retry message draw).2.phase.isAttached = false := by
  unfold retry
  split <;> rfl

theorem fail_detached (driver : SyncDriver) (error : SyncError) (draw : Binary64) :
    (driver.fail error draw).2.phase.isAttached = false := by
  unfold fail
  split
  · rfl
  · split
    · exact driver.retry_detached error.message draw
    · rfl

/-- A driver whose session has broken off, or could not be opened, has none. -/
theorem step_failed_detached (attached : driver.phase.isAttached = true) (error : SyncError)
    (draw : Binary64) : (driver.step draw (.failed error)).2.phase.isAttached = false := by
  rw [step_failed attached]
  exact driver.fail_detached error draw

theorem step_ended_detached (streaming : driver.phase = .streaming) (draw : Binary64) :
    (driver.step draw .ended).2.phase.isAttached = false := by
  unfold step
  rw [streaming]
  exact driver.retry_detached _ draw

end SyncDriver

namespace MemoryTraffic

variable {traffic : MemoryTraffic} {session : MemorySession}

/-- All messages that the sessions have yielded. -/
def messages (traffic : MemoryTraffic) : List SyncMessage :=
  traffic.sessions.flatMap (·.yielded.filterMap (·.message?))

theorem messages_of_some (hcurrent : traffic.current = some session) :
    traffic.messages = traffic.past.flatMap (·.yielded.filterMap (·.message?)) ++
      session.yielded.filterMap (·.message?) := by
  unfold messages sessions
  rw [hcurrent]
  simp

theorem messages_close (traffic : MemoryTraffic) (session : MemorySession) :
    (traffic.close session).messages = traffic.past.flatMap (·.yielded.filterMap (·.message?)) ++
      session.yielded.filterMap (·.message?) := by
  unfold messages sessions close
  simp

end MemoryTraffic

namespace Writer

variable {writer : Writer MemoryChannel} {got : List SyncMessage} {traffic : MemoryTraffic}
  {session : MemorySession}

/-- A writer is the only reader of the sessions of a channel, and its driver got some messages. -/
structure Reads (writer : Writer MemoryChannel) (got : List SyncMessage)
    (traffic : MemoryTraffic) : Prop where
  channel_eq : writer.channel = traffic.channel
  unclaimed : traffic.waiting = 0
  absent : writer.driver.phase ≠ .streaming → traffic.current = none
  present : writer.driver.phase = .streaming →
    ∃ session, traffic.current = some session ∧ session.phase = .reading
  messages_eq : traffic.messages = got

theorem reads_new (channel : MemoryChannel) (policy : RetryPolicy) :
    (Writer.new channel policy).Reads [] (.start channel) :=
  ⟨rfl, rfl, fun _ => rfl, nofun, rfl⟩

/-- Some moves of the channel, none of which puts anything into its queue, are what the writer does
when its driver gets some messages more. -/
def Matched (writer : Writer MemoryChannel) (got : List SyncMessage) (traffic : MemoryTraffic) :
    Prop :=
  ∃ moves : List MemoryMove, moves.filterMap (·.command?) = [] ∧
    writer.Reads got (traffic.playAll moves)

namespace Reads

/-- The writer has no session, and the channel has none. -/
theorem of_detached (channel_eq : writer.channel = traffic.channel)
    (unclaimed : traffic.waiting = 0) (detached : writer.driver.phase.isAttached = false)
    (hcurrent : traffic.current = none) (messages_eq : traffic.messages = got) :
    writer.Reads got traffic := by
  refine ⟨channel_eq, unclaimed, fun _ => hcurrent, fun streaming => ?_, messages_eq⟩
  rw [streaming] at detached
  cases detached

/-- The writer reads the session of the channel. -/
theorem of_streaming (channel_eq : writer.channel = traffic.channel)
    (unclaimed : traffic.waiting = 0) (streaming : writer.driver.phase = .streaming)
    (hcurrent : traffic.current = some session) (reading : session.phase = .reading)
    (messages_eq : traffic.messages = got) : writer.Reads got traffic :=
  ⟨channel_eq, unclaimed, fun absent => absurd streaming absent,
    fun _ => ⟨session, hcurrent, reading⟩, messages_eq⟩

/-- The driver opens a session, or fails to do so. -/
theorem connect (reads : writer.Reads got traffic) (connecting : writer.driver.phase = .connecting)
    (now : Nat) :
    let input := DriverInput.ofOpening writer.channel.connect.1
    ({ writer with channel := writer.channel.connect.2 }.feed now input).2.Matched got traffic := by
  intro input
  have hcurrent : traffic.current = none := reads.absent (connecting ▸ nofun)
  have attached : writer.driver.phase.isAttached = true := by
    rw [connecting]
    rfl
  cases hopened : traffic.channel.connect.1 with
  | ok opened =>
    have hinput : input = .opened := by
      show DriverInput.ofOpening writer.channel.connect.1 = _
      rw [reads.channel_eq, hopened]
      rfl
    refine ⟨[.open, .begin], rfl, ?_⟩
    show Reads _ _ ((traffic.play .open).play .begin)
    rw [MemoryTraffic.play_open_of_ok hopened, hinput]
    obtain ⟨channel, sent, past, current, waiting, left, between⟩ := traffic
    obtain rfl : current = none := hcurrent
    obtain rfl : waiting = 0 := reads.unclaimed
    refine of_streaming (congrArg (·.connect.2) reads.channel_eq) rfl ?_ rfl rfl ?_
    · exact SyncDriver.step_opened connecting _
    · rw [← reads.messages_eq]
      simp [MemoryTraffic.messages, MemoryTraffic.sessions, MemoryTraffic.play]
  | error error =>
    have hinput : input = .failed error := by
      show DriverInput.ofOpening writer.channel.connect.1 = _
      rw [reads.channel_eq, hopened]
      rfl
    refine ⟨[.open], rfl, ?_⟩
    show Reads _ _ (traffic.play .open)
    rw [MemoryTraffic.play_open_of_error hopened, hinput]
    refine of_detached (congrArg (·.connect.2) reads.channel_eq) reads.unclaimed ?_ hcurrent
      reads.messages_eq
    exact SyncDriver.step_failed_detached attached error _

/-- The driver hears what the session delivers. -/
theorem deliver (reads : writer.Reads got traffic) (streaming : writer.driver.phase = .streaming)
    (now : Nat) {delivery : Delivery} {channel : MemoryChannel}
    (answer : writer.channel.next = (.ready delivery, channel)) :
    let input := DriverInput.ofDelivery delivery
    ({ writer with channel }.feed now input).2.Matched (got ++ input.message?.toList) traffic := by
  intro input
  obtain ⟨session, hcurrent, reading⟩ := reads.present streaming
  have hread := MemoryTraffic.play_read_of_reading hcurrent reading
  have hgot : ∀ more : List Delivery,
      traffic.past.flatMap (·.yielded.filterMap (·.message?)) ++
        (session.yielded ++ more).filterMap (·.message?) = got ++ more.filterMap (·.message?) := by
    intro more
    rw [← reads.messages_eq, MemoryTraffic.messages_of_some hcurrent, List.filterMap_append,
      List.append_assoc]
  have attached : writer.driver.phase.isAttached = true := by
    rw [streaming]
    rfl
  unfold MemoryChannel.next at answer
  split at answer
  · cases answer
  · rename_i command queue hqueue
    cases answer
    have hchannel : { writer.channel with queue } = { traffic.channel with queue } := by
      rw [reads.channel_eq]
    rw [reads.channel_eq] at hqueue
    rw [MemoryTraffic.take_of_cons hqueue] at hread
    cases command with
    | message message =>
      refine ⟨[.read], rfl, ?_⟩
      show Reads _ _ (traffic.play .read)
      rw [hread]
      refine of_streaming hchannel reads.unclaimed ?_ rfl reading ?_
      · exact SyncDriver.step_message streaming _ message
      · rw [MemoryTraffic.messages_of_some rfl]
        exact hgot [.message message]
    | disconnect =>
      refine ⟨[.read], rfl, ?_⟩
      show Reads _ _ (traffic.play .read)
      rw [hread]
      refine of_detached hchannel reads.unclaimed ?_ rfl ?_
      · exact SyncDriver.step_ended_detached streaming _
      · exact (MemoryTraffic.messages_close _ _).trans (hgot [.ended])
    | fail text =>
      refine ⟨[.read, .drop], rfl, ?_⟩
      show Reads _ _ ((traffic.play .read).play .drop)
      rw [hread]
      refine of_detached hchannel reads.unclaimed ?_ rfl ?_
      · exact SyncDriver.step_failed_detached attached _ _
      · exact (MemoryTraffic.messages_close _ _).trans (hgot [.failed (.stream text)])

/-- A driver that is stopped drops the session that it has. -/
theorem stop (reads : writer.Reads got traffic) (running : writer.driver.phase ≠ .terminated)
    (now : Nat) : (writer.feed now .cancelled).2.Matched got traffic := by
  have stopped : (writer.feed now .cancelled).2.driver.phase.isAttached = false := by
    show (writer.driver.step _ .cancelled).2.phase.isAttached = false
    rw [SyncDriver.step_cancelled running]
    rfl
  by_cases streaming : writer.driver.phase = .streaming
  · obtain ⟨session, hcurrent, reading⟩ := reads.present streaming
    refine ⟨[.drop], rfl, ?_⟩
    have hdrop : traffic.play .drop = traffic.close { session with phase := .dropped } := by
      simp only [MemoryTraffic.play, hcurrent]
    show Reads _ _ (traffic.play .drop)
    rw [hdrop]
    refine of_detached reads.channel_eq reads.unclaimed stopped rfl ?_
    rw [MemoryTraffic.messages_close, ← reads.messages_eq]
    exact (MemoryTraffic.messages_of_some hcurrent).symm
  · refine ⟨[], rfl, ?_⟩
    exact of_detached reads.channel_eq reads.unclaimed stopped (reads.absent streaming)
      reads.messages_eq

/-- Nothing happens to the session. -/
theorem stay (reads : writer.Reads got traffic) {later : Writer MemoryChannel}
    (hchannel : later.channel = writer.channel)
    (hphase : later.driver.phase = .streaming ↔ writer.driver.phase = .streaming) :
    later.Matched got traffic :=
  ⟨[], rfl, hchannel.trans reads.channel_eq, reads.unclaimed,
    fun absent => reads.absent ((not_congr hphase).1 absent),
    fun present => reads.present (hphase.1 present), reads.messages_eq⟩

/-- What a writer does at one moment are some moves of its channel. -/
theorem attend (reads : writer.Reads got traffic) (moment : Moment) :
    (writer.attend moment).2.Matched
      (got ++ ((writer.attend moment).1.bind (·.input.message?)).toList) traffic := by
  have hgot : got = got ++ [] := (List.append_nil got).symm
  cases moment with
  | cancel => exact hgot ▸ reads.stay rfl .rfl
  | poll now =>
    have polling := writer.poll_polling now
    generalize hpoll : writer.poll now = result at polling
    cases polling with
    | ended terminated =>
      rw [attend_of_pending hpoll]
      exact hgot ▸ reads.stay rfl .rfl
    | cancels running cancelled =>
      rw [attend_of_ready hpoll]
      exact hgot ▸ reads.stop running now
    | rests uncancelled waiting early =>
      rw [attend_of_pending hpoll]
      exact hgot ▸ reads.stay rfl .rfl
    | wakes uncancelled waiting due =>
      rw [attend_of_ready hpoll]
      have unready : writer.driver.phase ≠ .streaming := by
        rw [waiting]
        exact nofun
      have connecting : (writer.feed now .waited).2.driver.phase ≠ .streaming := by
        show (writer.driver.step _ .waited).2.phase ≠ _
        rw [SyncDriver.step_waited waiting]
        exact nofun
      exact hgot ▸ reads.stay rfl (iff_of_false connecting unready)
    | connects uncancelled connecting answer =>
      have hconnect : Channel.connect now writer.channel =
        (.ready writer.channel.connect.1, writer.channel.connect.2) := rfl
      rw [hconnect] at answer
      cases answer
      rw [attend_of_ready hpoll]
      have silent : (DriverInput.ofOpening writer.channel.connect.1).message? = none := by
        cases writer.channel.connect.1 <;> rfl
      show Matched _ (got ++ (DriverInput.ofOpening writer.channel.connect.1).message?.toList) _
      rw [silent]
      exact hgot ▸ reads.connect connecting now
    | @streams reply channel uncancelled streaming answer =>
      cases reply with
      | ready delivery =>
        rw [attend_of_ready hpoll]
        exact reads.deliver streaming now answer
      | pending wake =>
        rw [attend_of_pending hpoll]
        have hchannel : channel = writer.channel := by
          have hnext : writer.channel.next = (.pending wake, channel) := answer
          unfold MemoryChannel.next at hnext
          split at hnext
          · cases hnext
            rfl
          · cases hnext
        exact hgot ▸ reads.stay hchannel .rfl

/-- The application puts something into the queue, which is still to be read. -/
theorem send (reads : writer.Reads got traffic) (command : MemoryCommand) :
    { writer with channel := writer.channel.send command }.Reads got
      (traffic.play (.send command)) := by
  have hchannel : writer.channel.send command = traffic.channel.send command :=
    congrArg (·.send command) reads.channel_eq
  unfold MemoryTraffic.play
  dsimp only
  cases hcurrent : traffic.current with
  | none =>
    refine ⟨hchannel, reads.unclaimed, fun _ => rfl, fun streaming => ?_, ?_⟩
    · obtain ⟨session, hsession, -⟩ := reads.present streaming
      rw [hcurrent] at hsession
      cases hsession
    · rw [← reads.messages_eq, MemoryTraffic.messages, MemoryTraffic.messages,
        MemoryTraffic.sessions, MemoryTraffic.sessions, hcurrent]
  | some session =>
    refine ⟨hchannel, reads.unclaimed, fun absent => ?_, fun streaming => ?_, ?_⟩
    · have := reads.absent absent
      rw [hcurrent] at this
      cases this
    · obtain ⟨other, hsession, reading⟩ := reads.present streaming
      rw [hcurrent] at hsession
      cases hsession
      exact ⟨_, rfl, reading⟩
    · rw [MemoryTraffic.messages_of_some rfl, ← reads.messages_eq]
      exact (MemoryTraffic.messages_of_some hcurrent).symm

end Reads

end Writer

/-- What can happen around a writer with a memory channel. -/
inductive MemoryTurn where
  | attend (moment : Writer.Moment)
  | send (command : MemoryCommand)
  | failOpens (count : Nat)
  | refuse (unavailable : Bool)

/-- What the application puts into the queue in a turn. -/
def MemoryTurn.command? : MemoryTurn → Option MemoryCommand
  | send command => some command
  | _ => none

namespace Writer

/-- What comes of a turn. -/
def turn (writer : Writer MemoryChannel) : MemoryTurn → Option LogEntry × Writer MemoryChannel
  | .attend moment => writer.attend moment
  | .send command => (none, { writer with channel := writer.channel.send command })
  | .failOpens count =>
    (none, { writer with channel := { writer.channel with failingOpens := count } })
  | .refuse unavailable => (none, { writer with channel := { writer.channel with unavailable } })

/-- What comes of some turns, one after the other. -/
def turns : Writer MemoryChannel → List MemoryTurn → List LogEntry × Writer MemoryChannel
  | writer, [] => ([], writer)
  | writer, turn :: turns =>
    let (entry, writer) := writer.turn turn
    let (log, writer) := writer.turns turns
    (entry.toList ++ log, writer)

variable {writer : Writer MemoryChannel} {got : List SyncMessage} {traffic : MemoryTraffic}

theorem Reads.turn (reads : writer.Reads got traffic) (turn : MemoryTurn) :
    ∃ moves, moves.filterMap (·.command?) = turn.command?.toList ∧
      (writer.turn turn).2.Reads (got ++ ((writer.turn turn).1.bind (·.input.message?)).toList)
        (traffic.playAll moves) := by
  have hgot : got = got ++ [] := (List.append_nil got).symm
  cases turn with
  | attend moment => exact reads.attend moment
  | send command => exact ⟨[.send command], rfl, hgot ▸ reads.send command⟩
  | failOpens count =>
    refine ⟨[.failOpens count], rfl, hgot ▸ ⟨?_, reads.unclaimed, reads.absent, reads.present,
      reads.messages_eq⟩⟩
    exact congrArg (fun channel => { channel with failingOpens := count }) reads.channel_eq
  | refuse unavailable =>
    refine ⟨[.refuse unavailable], rfl, hgot ▸ ⟨?_, reads.unclaimed, reads.absent, reads.present,
      reads.messages_eq⟩⟩
    exact congrArg (fun channel => { channel with unavailable }) reads.channel_eq

/-- Whatever happens around a writer are moves of its channel. -/
theorem Reads.turns (reads : writer.Reads got traffic) (turns : List MemoryTurn) :
    ∃ moves, moves.filterMap (·.command?) = turns.filterMap (·.command?) ∧
      (writer.turns turns).2.Reads (got ++ (heard (writer.turns turns).1).filterMap (·.message?))
        (traffic.playAll moves) := by
  induction turns generalizing writer got traffic with
  | nil => exact ⟨[], rfl, (List.append_nil got).symm ▸ reads⟩
  | cons turn turns ih =>
    obtain ⟨first, hfirst, between⟩ := reads.turn turn
    obtain ⟨later, hlater, last⟩ := ih between
    refine ⟨first ++ later, ?_, ?_⟩
    · rw [List.filterMap_append, hfirst, hlater, List.filterMap_cons]
      cases turn.command? <;> rfl
    · have hplay : traffic.playAll (first ++ later) = (traffic.playAll first).playAll later :=
        List.foldl_append
      have hheard : (heard (writer.turns (turn :: turns)).1).filterMap (·.message?) =
          ((writer.turn turn).1.bind (·.input.message?)).toList ++
            (heard ((writer.turn turn).2.turns turns).1).filterMap (·.message?) := by
        show (heard ((writer.turn turn).1.toList ++ _)).filterMap _ = _
        rw [heard_append, List.filterMap_append]
        cases (writer.turn turn).1 with
        | none => rfl
        | some entry =>
          simp only [heard, Option.toList_some, List.map_cons, List.map_nil, Option.bind_some,
            List.filterMap_cons]
          cases entry.input.message? <;> rfl
      rw [hplay, hheard, ← List.append_assoc]
      exact last

/-- The driver of a writer with a memory channel hears the messages that were put into the queue, in
their order, and all that it has not heard are still there. -/
theorem heard_of_turns (channel : MemoryChannel) (policy : RetryPolicy) (turns : List MemoryTurn) :
    let later := (Writer.new channel policy).turns turns
    (channel.queue ++ turns.filterMap (·.command?)).filterMap (·.message?) =
      (heard later.1).filterMap (·.message?) ++ later.2.channel.queue.filterMap (·.message?) := by
  intro later
  obtain ⟨moves, hmoves, reads⟩ := (reads_new channel policy).turns turns
  have accounted := (MemoryTraffic.accounted_start channel).playAll moves
  obtain ⟨rest, succession, -⟩ := accounted.succession
  have hput := accounted.sent_eq_taken
  rw [MemoryTraffic.sent_playAll, hmoves, ← reads.channel_eq] at hput
  have hgot : (heard later.1).filterMap (·.message?) =
      (((MemoryTraffic.start channel).playAll moves).sessions.flatMap (·.taken)).filterMap
        (·.message?) := reads.messages_eq.symm.trans succession.messages_eq
  rw [hgot, ← List.filterMap_append, ← hput]
  rfl

end Writer

end FeatureFlags
