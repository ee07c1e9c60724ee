import FeatureFlags.Sync.Driver

/-!
# Running the driver on a channel

The writer connects a driver to a channel. Whenever the driver is waiting for something, the writer
asks the channel or the clock for it, and hands each event that the driver gives out to a sink.
A cancellation goes before all else.

`settle` lets the writer run until it has to wait, without any time going by. `runUntil` lets time
go by from one moment at which the writer has something to do to the next.
-/

namespace FeatureFlags

/-- A driver with its channel. -/
structure Writer (σ : Type) where
  driver : SyncDriver
  channel : σ
  /-- The draws for the jitter of the waits. -/
  draws : Nat → Binary64 := fun _ => .zero
  /-- The number of steps so far. -/
  steps : Nat := 0
  /-- When the present wait of the driver ends. -/
  due : Nat := 0
  cancelled : Bool := false

namespace Writer

variable {σ α : Type}

/-- A writer that has not begun yet. -/
def new (channel : σ) (policy : RetryPolicy) : Writer σ :=
  { driver := .ofPolicy policy, channel }

/-- Whether the writer will do nothing any more. -/
def isFinished (writer : Writer σ) : Bool := writer.driver.phase == .terminated

def cancel (writer : Writer σ) : Writer σ := { writer with cancelled := true }

/-- Hands the driver something that happens to it. -/
def feed (now : Nat) (writer : Writer σ) (input : DriverInput) : Option Emission × Writer σ :=
  let (emission, driver) := writer.driver.step (writer.draws writer.steps) input
  let due :=
    match driver.phase with
    | .waiting delay => now + delay.timerMilliseconds
    | _ => writer.due
  (emission, { writer with driver, due, steps := writer.steps + 1 })

variable [Channel σ]

/-- What happens to the driver next. -/
def poll (now : Nat) (writer : Writer σ) : Reply DriverInput × Writer σ :=
  if writer.isFinished then (.pending none, writer)
  else if writer.cancelled then (.ready .cancelled, writer)
  else
    match writer.driver.phase with
    | .connecting =>
      let (reply, channel) := Channel.connect now writer.channel
      (reply.map .ofOpening, { writer with channel })
    | .streaming =>
      let (reply, channel) := Channel.next now writer.channel
      (reply.map .ofDelivery, { writer with channel })
    | _ => (if writer.due ≤ now then .ready .waited else .pending (some writer.due), writer)

/-- A bound on the steps that a writer can take without any time going by. -/
def bound (writer : Writer σ) : Nat :=
  3 * (writer.driver.backoff.policy.maxRetries.toNat + 2) * (Channel.size writer.channel + 2)

/-- Lets the writer run until it has to wait. The time when it will have something to do is given if
it is known. -/
def settle (sink : α → Emission → α) (now : Nat) (writer : Writer σ) (state : α) :
    α × Option Nat × Writer σ :=
  go writer.bound writer state
where
  /-- Lets the writer take a number of steps at most. -/
  go : Nat → Writer σ → α → α × Option Nat × Writer σ
    | 0, writer, state => (state, none, writer)
    | fuel + 1, writer, state =>
      match writer.poll now with
      | (.pending wake, writer) => (state, wake, writer)
      | (.ready input, writer) =>
        let (emission, writer) := writer.feed now input
        go fuel writer (emission.elim state (sink state))

/-- Lets the writer run as long as it has something to do up to a point of time. The last moment at
which it did something is given. -/
def runUntil (sink : Nat → α → Emission → α) (last now : Nat) (writer : Writer σ) (state : α) :
    α × Nat × Writer σ :=
  go (last - now) now writer state
where
  /-- Goes from moment to moment, of which there is at most one in each millisecond. -/
  go (left now : Nat) (writer : Writer σ) (state : α) : α × Nat × Writer σ :=
    let (state, wake, writer) := writer.settle (sink now) now state
    match left, wake with
    | left + 1, some wake =>
      if wake ≤ last then go left (Nat.max wake (now + 1)) writer state else (state, now, writer)
    | _, _ => (state, now, writer)

/-- Lets a writer run from the beginning, up to a point of time at which it is cancelled. -/
def runCancelled (sink : Nat → α → Emission → α) (cancelAt : Nat) (writer : Writer σ) (state : α) :
    α × Nat × Writer σ :=
  match cancelAt with
  | 0 => writer.cancel.runUntil sink 0 0 state
  | before + 1 =>
    let (state, now, writer) := writer.runUntil sink before 0 state
    if writer.isFinished then (state, now, writer)
    else writer.cancel.runUntil sink cancelAt cancelAt state

end Writer

end FeatureFlags
