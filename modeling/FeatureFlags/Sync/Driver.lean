import FeatureFlags.Backoff
import FeatureFlags.Channel.Basic

/-!
# The driver of a channel

The driver keeps a session with the source open. It turns what the sessions deliver into events for
the holder of the configuration: the first configuration makes it ready, each later one is a change,
and a degraded source is reported as stale. When a session cannot be opened, breaks off or ends, the
driver reports the failure and waits before it opens the next one; when the source has failed too
often in a row, or in a way that will not pass, it reports a fatal failure and stops. A
configuration or a sign of life makes the count of failures start anew.

The driver is a machine: `step` says what it does about one thing that happens to it.
-/

namespace FeatureFlags

/-- What the driver is waiting for. -/
inductive DriverPhase where
  /-- The time of the next attempt to open a session. -/
  | waiting (delay : Duration)
  /-- The session being opened. -/
  | connecting
  /-- The next delivery of the open session. -/
  | streaming
  /-- Nothing any more. -/
  | terminated
  deriving DecidableEq

namespace DriverPhase

/-- How the driver stands to its source. -/
def channelState : DriverPhase → ChannelState
  | waiting _ => .disconnected
  | connecting => .connecting
  | streaming => .streaming
  | terminated => .terminated

end DriverPhase

/-- What can happen to the driver. -/
inductive DriverInput where
  /-- The wait is over. -/
  | waited
  /-- A session is open. -/
  | opened
  /-- The session could not be opened, or broke off. -/
  | failed (error : SyncError)
  | message (message : SyncMessage)
  /-- The session came to its end. -/
  | ended
  /-- Nobody is interested any more. -/
  | cancelled
  deriving DecidableEq

namespace DriverInput

def ofDelivery : Delivery → DriverInput
  | .message m => .message m
  | .failed error => .failed error
  | .ended => .ended

def ofOpening : Except SyncError Unit → DriverInput
  | .ok () => .opened
  | .error error => .failed error

end DriverInput

/-- An event that the driver hands out, and how it stands to its source at that moment. -/
structure Emission where
  event : StorageEvent
  state : ChannelState
  deriving DecidableEq

/-- The driver of a channel. -/
structure SyncDriver where
  backoff : Backoff
  /-- Whether a configuration has arrived yet. -/
  delivered : Bool := false
  phase : DriverPhase := .waiting .zero

namespace SyncDriver

/-- A driver that is about to open its first session. -/
def ofPolicy (policy : RetryPolicy) : SyncDriver := { backoff := { policy } }

def state (driver : SyncDriver) : ChannelState := driver.phase.channelState

def stop (driver : SyncDriver) : SyncDriver := { driver with phase := .terminated }

/-- What a message of the open session makes of the driver. -/
def receive (driver : SyncDriver) : SyncMessage → Option StorageEvent × SyncDriver
  | .configuration payload =>
    (some (if driver.delivered then .changed payload else .ready payload),
      { driver with backoff := driver.backoff.reset, delivered := true })
  | .heartbeat => (none, { driver with backoff := driver.backoff.reset })
  | .degraded reason => (some (.stale reason), driver)

/-- Waits for the next attempt after a failure that may pass, or gives up. -/
def retry (driver : SyncDriver) (message : String) (draw : Binary64) : StorageEvent × SyncDriver :=
  match driver.backoff.next draw with
  | (some delay, backoff) =>
    (.error ⟨message, false⟩, { driver with backoff, phase := .waiting delay })
  | (none, backoff) =>
    let attempts := toString (backoff.failures - 1)
    (.error ⟨"gave up after " ++ attempts ++ " reconnect attempts: " ++ message, true⟩,
      { driver with backoff, phase := .terminated })

/-- What an error of the source makes of the driver. -/
def fail (driver : SyncDriver) (error : SyncError) (draw : Binary64) :
    Option StorageEvent × SyncDriver :=
  if error = .cancelled then (none, driver.stop)
  else if error.isRetryable then
    let (event, driver) := driver.retry error.message draw
    (some event, driver)
  else (some (.error ⟨error.message, true⟩), driver.stop)

/-- What the driver does about something that happens to it; what does not fit its phase is
ignored. A draw between 0 and 1 settles the jitter of a wait. -/
def step (driver : SyncDriver) (draw : Binary64) (input : DriverInput) :
    Option Emission × SyncDriver :=
  let emit (state : ChannelState) (r : Option StorageEvent × SyncDriver) :
      Option Emission × SyncDriver := (r.1.map (⟨·, state⟩), r.2)
  match driver.phase, input with
  | .terminated, _ => (none, driver)
  | _, .cancelled => (none, driver.stop)
  | .waiting _, .waited => (none, { driver with phase := .connecting })
  | .connecting, .opened => (none, { driver with phase := .streaming })
  | .connecting, .failed error => emit .disconnected (driver.fail error draw)
  | .streaming, .message m => emit .streaming (driver.receive m)
  | .streaming, .failed error => emit .disconnected (driver.fail error draw)
  | .streaming, .ended =>
    let (event, driver) := driver.retry "sync session ended" draw
    (some ⟨event, .disconnected⟩, driver)
  | _, _ => (none, driver)

end SyncDriver

end FeatureFlags
