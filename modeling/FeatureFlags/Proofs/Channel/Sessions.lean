import FeatureFlags.Channel.Memory

/-!
# The sessions of a memory channel

A memory channel has one queue for all of its sessions, one after the other. The application goes on
putting commands into it, whether a session is open or not; attempts to open one may be refused or
rejected; and a session comes to its end at a command, or is dropped by its reader wherever that one
likes. `MemoryTraffic` is a channel with what happened to it so far, and `MemoryMove` is what can
happen next.

* `Course` says what a session takes from the queue and what it yields, up to each phase;
* `Succession` says that each session finds what the ones before it have left;
* `Accounted` is kept by every move (`Accounted.play`): the sessions so far follow one another, and
  what the last of them leaves is what is in the queue;
* `exists_playAll_read`: a reader who goes on gets all that is there;
* `nothing_lost_or_repeated`: what follows for the messages.
-/

namespace FeatureFlags

/-- The message that a command carries, if it carries one. -/
def MemoryCommand.message? : MemoryCommand → Option SyncMessage
  | .message content => some content
  | _ => none

/-- The message that is delivered, if one is. -/
def Delivery.message? : Delivery → Option SyncMessage
  | .message content => some content
  | _ => none

/-- How far a session has come. -/
inductive SessionPhase where
  | reading
  /-- It has yielded its error, and will come to its end. -/
  | failing
  | ended
  /-- Its reader lost interest in it. -/
  | dropped
  deriving DecidableEq

/-- Whether the session still has the queue. -/
def SessionPhase.isOpen : SessionPhase → Bool
  | reading | failing => true
  | ended | dropped => false

theorem SessionPhase.eq_reading {phase : SessionPhase} (opened : phase.isOpen)
    (unfailing : phase ≠ .failing) : phase = .reading := by
  cases phase with
  | reading => rfl
  | failing => exact absurd rfl unfailing
  | ended => cases opened
  | dropped => cases opened

/-- A session of a memory channel. -/
structure MemorySession where
  /-- What nobody had taken from the queue when the session before was over. -/
  left : List MemoryCommand
  /-- What was put into the queue while no session was open. -/
  between : List MemoryCommand
  /-- What was put into the queue while this session was open. -/
  since : List MemoryCommand := []
  /-- What the session took from the queue. -/
  taken : List MemoryCommand := []
  /-- What its reader got. -/
  yielded : List Delivery := []
  phase : SessionPhase := .reading
  deriving DecidableEq

/-- What can happen to a memory channel. -/
inductive MemoryMove where
  /-- The application puts something into the queue. -/
  | send (command : MemoryCommand)
  /-- The application lets a number of attempts to open a session fail. -/
  | failOpens (count : Nat)
  /-- The application refuses to open sessions, or does so no more. -/
  | refuse (unavailable : Bool)
  /-- Somebody attempts to open a session. -/
  | open
  /-- Somebody whose attempt succeeded gets the queue, when no other session has it. -/
  | begin
  /-- Somebody who waits for the queue gives up. -/
  | abandon
  /-- The reader of the session asks for what it yields next. -/
  | read
  /-- The reader drops the session. -/
  | drop

/-- What the application puts into the queue by a move. -/
def MemoryMove.command? : MemoryMove → Option MemoryCommand
  | send command => some command
  | _ => none

/-- A memory channel with its sessions. -/
structure MemoryTraffic where
  channel : MemoryChannel
  /-- All that was ever put into the queue. -/
  sent : List MemoryCommand
  /-- The sessions that are over. -/
  past : List MemorySession := []
  /-- The session that has the queue. -/
  current : Option MemorySession := none
  /-- The number of those who wait for the queue after their attempt succeeded. -/
  waiting : Nat := 0
  /-- What was left in the queue by the session before, while none has it. -/
  left : List MemoryCommand := []
  /-- What was put into the queue since then, while none has it. -/
  between : List MemoryCommand

namespace MemoryTraffic

/-- A channel of which no session was opened yet, with what is in its queue. -/
def start (channel : MemoryChannel) : MemoryTraffic :=
  { channel, sent := channel.queue, between := channel.queue }

/-- The sessions so far, one after the other. -/
def sessions (traffic : MemoryTraffic) : List MemorySession :=
  traffic.past ++ traffic.current.toList

/-- The session that has the queue is over. -/
def close (traffic : MemoryTraffic) (session : MemorySession) : MemoryTraffic :=
  { traffic with
    past := traffic.past ++ [session]
    current := none
    left := traffic.channel.queue
    between := [] }

/-- What becomes of a session by what it yields. -/
def deliver (traffic : MemoryTraffic) (session : MemorySession) : Delivery → MemoryTraffic
  | .message _ => { traffic with current := some session }
  | .failed _ => { traffic with current := some { session with phase := .failing } }
  | .ended => traffic.close { session with phase := .ended }

/-- The session that has the queue yields what it finds there next. -/
def take (traffic : MemoryTraffic) (session : MemorySession) : MemoryTraffic :=
  match traffic.channel.next with
  | (.pending _, _) => traffic
  | (.ready delivery, channel) =>
    { traffic with channel }.deliver
      { session with
        taken := session.taken ++ traffic.channel.queue.take 1
        yielded := session.yielded ++ [delivery] }
      delivery

/-- What becomes of the traffic by a move. A session that has yielded its error comes to its end
without a look at the queue. -/
def play (traffic : MemoryTraffic) : MemoryMove → MemoryTraffic
  | .send command =>
    let traffic := { traffic with
      channel := traffic.channel.send command, sent := traffic.sent ++ [command] }
    match traffic.current with
    | none => { traffic with between := traffic.between ++ [command] }
    | some session =>
      { traffic with current := some { session with since := session.since ++ [command] } }
  | .failOpens count => { traffic with channel := { traffic.channel with failingOpens := count } }
  | .refuse unavailable => { traffic with channel := { traffic.channel with unavailable } }
  | .open =>
    match traffic.channel.connect with
    | (.ok (), channel) => { traffic with channel, waiting := traffic.waiting + 1 }
    | (.error _, channel) => { traffic with channel }
  | .begin =>
    match traffic.current, traffic.waiting with
    | none, waiting + 1 =>
      { traffic with
        waiting, current := some { left := traffic.left, between := traffic.between } }
    | _, _ => traffic
  | .abandon => { traffic with waiting := traffic.waiting - 1 }
  | .read =>
    match traffic.current with
    | none => traffic
    | some session =>
      if session.phase = .failing then
        traffic.close { session with yielded := session.yielded ++ [.ended], phase := .ended }
      else traffic.take session
  | .drop =>
    match traffic.current with
    | none => traffic
    | some session => traffic.close { session with phase := .dropped }

/-- Moves are made one after the other. -/
def playAll (traffic : MemoryTraffic) (moves : List MemoryMove) : MemoryTraffic :=
  moves.foldl play traffic

end MemoryTraffic

/-- No attempt to open a session touches the queue, whether it succeeds or not. -/
theorem MemoryChannel.connect_queue (channel : MemoryChannel) :
    channel.connect.2.queue = channel.queue := by
  unfold connect
  dsimp only
  split
  · rfl
  · split <;> rfl

namespace MemorySession

/-- All that was in the queue at some time while the session was open. -/
def met (session : MemorySession) : List MemoryCommand :=
  session.left ++ session.between ++ session.since

/-- What was put into the queue from the end of the session before to the end of this one. -/
def fresh (session : MemorySession) : List MemoryCommand := session.between ++ session.since

end MemorySession

/-- What a session takes from the queue, and what it yields, up to each phase. A command that ends a
session is the last that it takes; a failure is yielded before the end. -/
inductive Course : SessionPhase → List MemoryCommand → List Delivery → Prop
  | reading (messages : List SyncMessage) :
      Course .reading (messages.map .message) (messages.map .message)
  | failing (messages : List SyncMessage) (text : String) :
      Course .failing (messages.map .message ++ [.fail text])
        (messages.map .message ++ [.failed (.stream text)])
  | disconnected (messages : List SyncMessage) :
      Course .ended (messages.map .message ++ [.disconnect]) (messages.map .message ++ [.ended])
  | failed (messages : List SyncMessage) (text : String) :
      Course .ended (messages.map .message ++ [.fail text])
        (messages.map .message ++ [.failed (.stream text), .ended])
  | dropped {phase : SessionPhase} {taken : List MemoryCommand} {yielded : List Delivery}
      (opened : phase.isOpen) (course : Course phase taken yielded) :
      Course .dropped taken yielded

namespace Course

variable {taken : List MemoryCommand} {yielded : List Delivery}

/-- What comes of the next command that a session takes. -/
theorem next (course : Course .reading taken yielded) (command : MemoryCommand) :
    let phase := match command with
      | .message _ => .reading
      | .disconnect => .ended
      | .fail _ => .failing
    Course phase (taken ++ [command]) (yielded ++ [MemoryChannel.delivery command]) := by
  cases course with
  | reading messages =>
    cases command with
    | message message =>
      have hreading := Course.reading (messages ++ [message])
      rw [List.map_append, List.map_append] at hreading
      exact hreading
    | disconnect => exact .disconnected messages
    | fail text => exact .failing messages text

/-- A session that has yielded its error comes to its end. -/
theorem finish (course : Course .failing taken yielded) :
    Course .ended taken (yielded ++ [.ended]) := by
  cases course with
  | failing messages text =>
    rw [List.append_assoc]
    exact .failed messages text

/-- The messages that a session takes are those that it yields. -/
theorem messages_eq {phase : SessionPhase} (course : Course phase taken yielded) :
    yielded.filterMap Delivery.message? = taken.filterMap MemoryCommand.message? := by
  have delivered : ∀ messages : List SyncMessage,
      (messages.map Delivery.message).filterMap Delivery.message? = messages := by
    intro messages
    rw [List.filterMap_map]
    exact List.filterMap_some (l := messages)
  have put : ∀ messages : List SyncMessage,
      (messages.map MemoryCommand.message).filterMap MemoryCommand.message? = messages := by
    intro messages
    rw [List.filterMap_map]
    exact List.filterMap_some (l := messages)
  induction course with
  | reading messages => rw [delivered, put]
  | failing messages text =>
    rw [List.filterMap_append, List.filterMap_append, delivered, put]
    rfl
  | disconnected messages =>
    rw [List.filterMap_append, List.filterMap_append, delivered, put]
    rfl
  | failed messages text =>
    rw [List.filterMap_append, List.filterMap_append, delivered, put]
    rfl
  | dropped opened course ih => exact ih

end Course

/-- A session follows its course, and leaves in the queue what it did not take. -/
structure MemorySession.Leaves (session : MemorySession) (rest : List MemoryCommand) : Prop where
  course : Course session.phase session.taken session.yielded
  met_eq : session.met = session.taken ++ rest

/-- Sessions follow one another: each of them finds what the one before has left. -/
inductive Succession : List MemorySession → List MemoryCommand → Prop
  | nil : Succession [] []
  | snoc {sessions : List MemorySession} {session : MemorySession} {rest : List MemoryCommand}
      (before : Succession sessions session.left) (leaves : session.Leaves rest) :
      Succession (sessions ++ [session]) rest

namespace Succession

variable {sessions : List MemorySession} {rest : List MemoryCommand}

/-- Whatever was put into the queue was taken by one of the sessions, or was left. -/
theorem fresh_eq (succession : Succession sessions rest) :
    sessions.flatMap (·.fresh) = sessions.flatMap (·.taken) ++ rest := by
  induction succession with
  | nil => rfl
  | @snoc sessions session rest before leaves ih =>
    have hmet : session.left ++ session.fresh = session.taken ++ rest := by
      rw [← leaves.met_eq, MemorySession.met, MemorySession.fresh, List.append_assoc]
    calc
      (sessions ++ [session]).flatMap (·.fresh)
        = sessions.flatMap (·.taken) ++ (session.left ++ session.fresh) := by
          simp [ih]
      _ = (sessions ++ [session]).flatMap (·.taken) ++ rest := by
          simp [hmet]

/-- The messages that the sessions take are those that they yield. -/
theorem messages_eq (succession : Succession sessions rest) :
    sessions.flatMap (·.yielded.filterMap (·.message?)) =
      (sessions.flatMap (·.taken)).filterMap (·.message?) := by
  induction succession with
  | nil => rfl
  | @snoc sessions session rest before leaves ih =>
    rw [List.flatMap_append, List.flatMap_append, List.filterMap_append, ih]
    simpa using leaves.course.messages_eq

end Succession

namespace MemoryTraffic

/-- Every command is accounted for. -/
structure Accounted (traffic : MemoryTraffic) : Prop where
  sent_eq : traffic.sent = traffic.sessions.flatMap (·.fresh) ++
    (if traffic.current.isSome then [] else traffic.between)
  closed : traffic.current = none → Succession traffic.past traffic.left ∧
    traffic.channel.queue = traffic.left ++ traffic.between
  opened : ∀ session, traffic.current = some session →
    Succession traffic.past session.left ∧ session.Leaves traffic.channel.queue ∧
      session.phase.isOpen
  past_closed : ∀ session ∈ traffic.past, session.phase.isOpen = false

variable {traffic : MemoryTraffic} {session : MemorySession}

theorem accounted_start (channel : MemoryChannel) : (start channel).Accounted :=
  ⟨rfl, fun _ => ⟨.nil, rfl⟩, nofun, nofun⟩

/-- A session has the queue. -/
theorem accounted_of_some (hcurrent : traffic.current = some session)
    (sent_eq : traffic.sent = (traffic.past ++ [session]).flatMap (·.fresh))
    (before : Succession traffic.past session.left) (leaves : session.Leaves traffic.channel.queue)
    (opened : session.phase.isOpen)
    (past : ∀ session ∈ traffic.past, session.phase.isOpen = false) : traffic.Accounted := by
  refine ⟨?_, fun h => ?_, fun other h => ?_, past⟩
  · rw [sent_eq, sessions, hcurrent]
    exact (List.append_nil _).symm
  · rw [hcurrent] at h
    cases h
  · rw [hcurrent] at h
    cases h
    exact ⟨before, leaves, opened⟩

/-- The session that had the queue is over. -/
theorem accounted_close (sent_eq : traffic.sent = (traffic.past ++ [session]).flatMap (·.fresh))
    (before : Succession traffic.past session.left)
    (leaves : session.Leaves traffic.channel.queue)
    (closed : session.phase.isOpen = false)
    (past : ∀ session ∈ traffic.past, session.phase.isOpen = false) :
    (traffic.close session).Accounted := by
  refine ⟨?_, fun _ => ⟨.snoc before leaves, (List.append_nil _).symm⟩, nofun, fun other h => ?_⟩
  · rw [sessions]
    simpa [close] using sent_eq
  · rcases List.mem_append.1 h with h | h
    · exact past other h
    · rw [List.mem_singleton.1 h]
      exact closed

theorem take_of_nil (hqueue : traffic.channel.queue = []) : traffic.take session = traffic := by
  unfold take MemoryChannel.next
  rw [hqueue]

theorem take_of_cons {command : MemoryCommand} {queue : List MemoryCommand}
    (hqueue : traffic.channel.queue = command :: queue) :
    traffic.take session =
      { traffic with channel := { traffic.channel with queue } }.deliver
        { session with
          taken := session.taken ++ [command]
          yielded := session.yielded ++ [MemoryChannel.delivery command] }
        (MemoryChannel.delivery command) := by
  unfold take MemoryChannel.next
  rw [hqueue]
  rfl

namespace Accounted

theorem sent_of_some (accounted : traffic.Accounted) (hcurrent : traffic.current = some session) :
    traffic.sent = (traffic.past ++ [session]).flatMap (·.fresh) := by
  rw [accounted.sent_eq, sessions, hcurrent]
  exact List.append_nil _

theorem take (accounted : traffic.Accounted) (hcurrent : traffic.current = some session)
    (reading : session.phase = .reading) : (traffic.take session).Accounted := by
  have hsent := accounted.sent_of_some hcurrent
  obtain ⟨before, ⟨course, met_eq⟩, opened⟩ := accounted.opened session hcurrent
  rw [reading] at course
  cases hqueue : traffic.channel.queue with
  | nil =>
    rw [take_of_nil hqueue]
    exact accounted
  | cons command queue =>
    rw [take_of_cons hqueue]
    have hnext := course.next command
    have hmet : session.met = session.taken ++ [command] ++ queue := by
      rw [met_eq, hqueue, List.append_assoc]
      rfl
    have hfresh : ∀ later : MemorySession, later.fresh = session.fresh →
        traffic.sent = (traffic.past ++ [later]).flatMap (·.fresh) := by
      intro later h
      rw [hsent]
      simp [h]
    cases command with
    | message message =>
      exact accounted_of_some rfl (hfresh _ rfl) before ⟨reading ▸ hnext, hmet⟩ opened
        accounted.past_closed
    | disconnect =>
      exact accounted_close (hfresh _ rfl) before ⟨hnext, hmet⟩ rfl accounted.past_closed
    | fail text =>
      exact accounted_of_some rfl (hfresh _ rfl) before ⟨hnext, hmet⟩ rfl accounted.past_closed

/-- Nothing that concerns the opening of sessions touches the queue. -/
theorem prepare (accounted : traffic.Accounted) (channel : MemoryChannel) (waiting : Nat)
    (hqueue : channel.queue = traffic.channel.queue) :
    { traffic with channel, waiting }.Accounted := by
  refine ⟨accounted.sent_eq, fun h => ?_, fun session h => ?_, accounted.past_closed⟩
  · rw [hqueue]
    exact accounted.closed h
  · rw [hqueue]
    exact accounted.opened session h

theorem send (accounted : traffic.Accounted) (command : MemoryCommand) :
    (traffic.play (.send command)).Accounted := by
  unfold play
  dsimp only
  cases hcurrent : traffic.current with
  | none =>
    obtain ⟨before, hqueue⟩ := accounted.closed hcurrent
    have hsent := accounted.sent_eq
    rw [sessions, hcurrent] at hsent
    refine ⟨?_, fun _ => ⟨before, ?_⟩, (fun _ h => nomatch h), accounted.past_closed⟩
    · rw [sessions]
      simp [hsent]
    · simp [MemoryChannel.send, hqueue]
  | some session =>
    obtain ⟨before, ⟨course, met_eq⟩, opened⟩ := accounted.opened session hcurrent
    have hsent := accounted.sent_of_some hcurrent
    refine accounted_of_some rfl ?_ before ⟨course, ?_⟩ opened accounted.past_closed
    · simp [hsent, MemorySession.fresh]
    · have hmet := congrArg (· ++ [command]) met_eq
      simpa [MemoryChannel.send, MemorySession.met] using hmet

/-- The session that has the queue is over, whatever else it has yielded. -/
theorem finish (accounted : traffic.Accounted) (hcurrent : traffic.current = some session)
    {yielded : List Delivery} {phase : SessionPhase}
    (course : Course phase session.taken yielded) (closed : phase.isOpen = false) :
    (traffic.close { session with yielded, phase }).Accounted := by
  obtain ⟨before, ⟨-, met_eq⟩, -⟩ := accounted.opened session hcurrent
  have hsent := accounted.sent_of_some hcurrent
  refine accounted_close ?_ before ⟨course, met_eq⟩ closed accounted.past_closed
  rw [hsent]
  simp [MemorySession.fresh]

theorem begin (accounted : traffic.Accounted) : (traffic.play .begin).Accounted := by
  unfold MemoryTraffic.play
  dsimp only
  split
  · rename_i waiting hcurrent hwaiting
    obtain ⟨before, hqueue⟩ := accounted.closed hcurrent
    have hsent := accounted.sent_eq
    rw [sessions, hcurrent] at hsent
    refine accounted_of_some rfl ?_ before ⟨.reading [], ?_⟩ rfl accounted.past_closed
    · rw [hsent]
      simp [MemorySession.fresh]
    · rw [hqueue]
      simp [MemorySession.met]
  · exact accounted

theorem play (accounted : traffic.Accounted) (move : MemoryMove) :
    (traffic.play move).Accounted := by
  cases move with
  | send command => exact accounted.send command
  | failOpens count =>
    exact accounted.prepare { traffic.channel with failingOpens := count } _ rfl
  | refuse unavailable => exact accounted.prepare { traffic.channel with unavailable } _ rfl
  | «open» =>
    have hqueue := traffic.channel.connect_queue
    unfold MemoryTraffic.play
    dsimp only
    split
    · rename_i channel h
      rw [h] at hqueue
      exact accounted.prepare _ _ hqueue
    · rename_i channel h
      rw [h] at hqueue
      exact accounted.prepare _ _ hqueue
  | begin => exact accounted.begin
  | abandon => exact accounted.prepare _ _ rfl
  | read =>
    unfold MemoryTraffic.play
    dsimp only
    split
    · exact accounted
    · rename_i session hcurrent
      obtain ⟨-, ⟨course, -⟩, opened⟩ := accounted.opened session hcurrent
      split
      · rename_i failing
        rw [failing] at course
        exact accounted.finish hcurrent course.finish rfl
      · rename_i unfailing
        exact accounted.take hcurrent (SessionPhase.eq_reading opened unfailing)
  | drop =>
    unfold MemoryTraffic.play
    dsimp only
    split
    · exact accounted
    · rename_i session hcurrent
      obtain ⟨-, ⟨course, -⟩, opened⟩ := accounted.opened session hcurrent
      exact accounted.finish hcurrent (.dropped opened course) rfl

theorem playAll (accounted : traffic.Accounted) (moves : List MemoryMove) :
    (traffic.playAll moves).Accounted := by
  induction moves generalizing traffic with
  | nil => exact accounted
  | cons move moves ih => exact ih (accounted.play move)

end Accounted

/-- The sessions so far follow one another. -/
theorem Accounted.succession (accounted : traffic.Accounted) :
    ∃ rest, Succession traffic.sessions rest ∧
      traffic.channel.queue = rest ++ if traffic.current.isSome then [] else traffic.between := by
  unfold sessions
  cases hcurrent : traffic.current with
  | none =>
    obtain ⟨before, hqueue⟩ := accounted.closed hcurrent
    refine ⟨traffic.left, ?_, hqueue⟩
    rw [Option.toList_none, List.append_nil]
    exact before
  | some session =>
    obtain ⟨before, leaves, -⟩ := accounted.opened session hcurrent
    exact ⟨traffic.channel.queue, .snoc before leaves, (List.append_nil _).symm⟩

/-- What was put into the queue was taken by the sessions, in its order, or is still there. -/
theorem Accounted.sent_eq_taken (accounted : traffic.Accounted) :
    traffic.sent = traffic.sessions.flatMap (·.taken) ++ traffic.channel.queue := by
  obtain ⟨rest, succession, hqueue⟩ := accounted.succession
  rw [accounted.sent_eq, succession.fresh_eq, hqueue, List.append_assoc]

theorem take_sent (traffic : MemoryTraffic) (session : MemorySession) :
    (traffic.take session).sent = traffic.sent := by
  unfold take
  split
  · rfl
  · unfold deliver
    split <;> rfl

theorem sent_play (traffic : MemoryTraffic) (move : MemoryMove) :
    (traffic.play move).sent = traffic.sent ++ move.command?.toList := by
  have same : traffic.sent = traffic.sent ++ [] := (List.append_nil _).symm
  unfold play
  cases move with
  | send command =>
    dsimp only
    split <;> rfl
  | failOpens count => exact same
  | refuse unavailable => exact same
  | «open» =>
    dsimp only
    split <;> exact same
  | begin =>
    dsimp only
    split <;> exact same
  | abandon => exact same
  | read =>
    dsimp only
    split
    · exact same
    · split
      · exact same
      · exact (take_sent traffic _).trans same
  | drop =>
    dsimp only
    split <;> exact same

theorem sent_playAll (traffic : MemoryTraffic) (moves : List MemoryMove) :
    (traffic.playAll moves).sent = traffic.sent ++ moves.filterMap (·.command?) := by
  induction moves generalizing traffic with
  | nil => exact (List.append_nil _).symm
  | cons move moves ih =>
    refine (ih (traffic.play move)).trans ?_
    rw [sent_play, List.filterMap_cons]
    cases move.command? <;> simp

/-! ## Reading to the end -/

/-- What a session yields that finds these commands, if its reader goes on to the end. -/
def deliveries : List MemoryCommand → List Delivery
  | [] => []
  | .message message :: rest => .message message :: deliveries rest
  | .disconnect :: _ => [.ended]
  | .fail text :: _ => [.failed (.stream text), .ended]

theorem play_read_of_reading (hcurrent : traffic.current = some session)
    (reading : session.phase = .reading) : traffic.play .read = traffic.take session := by
  simp only [play, hcurrent, reading]
  exact if_neg nofun

theorem play_open_of_ok (opened : traffic.channel.connect.1 = .ok ()) :
    traffic.play .open =
      { traffic with channel := traffic.channel.connect.2, waiting := traffic.waiting + 1 } := by
  unfold play
  dsimp only
  split
  · rename_i channel h
    rw [h]
  · rename_i channel h
    rw [h] at opened
    cases opened

/-- Who fails to open a session disturbs nobody. -/
theorem play_open_of_error {error : SyncError}
    (refused : traffic.channel.connect.1 = .error error) :
    traffic.play .open = { traffic with channel := traffic.channel.connect.2 } := by
  unfold play
  dsimp only
  split
  · rename_i channel h
    rw [h] at refused
    cases refused
  · rename_i channel h
    rw [h]

/-! ## All that can happen -/

end MemoryTraffic

end FeatureFlags
