import FeatureFlags.Channel.Basic

/-!
# A channel fed by the application

The application puts messages into a queue, from which the open session delivers them in their
order. What is put there while no session is open waits for the next one. The application can also
end a session, and refuse to open one; a refusal takes nothing from the queue.
-/

namespace FeatureFlags

/-- What the application puts into the queue. -/
inductive MemoryCommand where
  | message (message : SyncMessage)
  /-- Ends the session that reaches it. -/
  | disconnect
  /-- Breaks off the session that reaches it. -/
  | fail (message : String)
  deriving DecidableEq

/-- A queue with the conditions on which sessions are opened. -/
structure MemoryChannel where
  queue : List MemoryCommand := []
  /-- The number of attempts to open a session that are still to be rejected. -/
  failingOpens : Nat := 0
  /-- Whether every attempt is refused. -/
  unavailable : Bool := false
  /-- The number of attempts so far. -/
  opens : Nat := 0

namespace MemoryChannel

/-- Where the configurations that the application puts in directly come from. -/
def origin : SyncMetadata := .ofEntries [("source", "memory")]

def send (channel : MemoryChannel) (command : MemoryCommand) : MemoryChannel :=
  { channel with queue := channel.queue ++ [command] }

def push (channel : MemoryChannel) (payload : SyncPayload) : MemoryChannel :=
  channel.send (.message (.configuration payload))

/-- Puts in a complete document. -/
def pushFull (channel : MemoryChannel) (text : String) : MemoryChannel :=
  channel.push { content := .full text, metadata := origin }

/-- Puts in a document of changes. -/
def pushDelta (channel : MemoryChannel) (text : String) : MemoryChannel :=
  channel.push { content := .delta text, metadata := origin }

/-- Opens a session, unless the application refuses. -/
def connect (channel : MemoryChannel) : Except SyncError Unit × MemoryChannel :=
  let attempt := channel.opens + 1
  let channel := { channel with opens := attempt }
  if channel.unavailable then (.error (.unavailable "memory source marked unavailable"), channel)
  else
    match channel.failingOpens with
    | 0 => (.ok (), channel)
    | rest + 1 =>
      (.error (.unavailable ("open " ++ toString attempt ++ " rejected")),
        { channel with failingOpens := rest })

/-- What a command makes the session deliver. -/
def delivery : MemoryCommand → Delivery
  | .message message => .message message
  | .disconnect => .ended
  | .fail message => .failed (.stream message)

/-- Takes the next command from the queue. -/
def next (channel : MemoryChannel) : Reply Delivery × MemoryChannel :=
  match channel.queue with
  | [] => (.pending none, channel)
  | command :: queue => (.ready (delivery command), { channel with queue })

instance : Channel MemoryChannel where
  kind := "memory"
  connect _ channel :=
    let (opened, channel) := channel.connect
    (.ready opened, channel)
  next _ channel := channel.next
  size channel := channel.queue.length

end MemoryChannel

end FeatureFlags
