import FeatureFlags.Sync.Error
import FeatureFlags.Sync.Payload

/-!
# Channels

A channel opens sessions with a source, one after the other. An open session delivers messages until
it fails or ends. A channel is asked at a point of time, counted in milliseconds; its answer may be
that it has none yet, and until when it is waiting.
-/

namespace FeatureFlags

/-- A message of an open session. -/
inductive SyncMessage where
  | configuration (payload : SyncPayload)
  /-- The source is connected, but its data may be out of date. -/
  | degraded (reason : String)
  /-- The source is alive. -/
  | heartbeat
  deriving DecidableEq

/-- What an open session delivers. After a failure it delivers nothing more. -/
inductive Delivery where
  | message (message : SyncMessage)
  | failed (error : SyncError)
  | ended
  deriving DecidableEq

/-- An answer that may have to be waited for. -/
inductive Reply (α : Type) where
  | ready (answer : α)
  /-- There is no answer yet. The time of the next one is given if it is known. -/
  | pending (wake : Option Nat)
  deriving DecidableEq

/-- Changes the answer. -/
def Reply.map {α β : Type} (f : α → β) : Reply α → Reply β
  | ready answer => ready (f answer)
  | pending wake => pending wake

/-- A source of configurations, with the session that is open. -/
class Channel (σ : Type) where
  /-- The short name of the kind of the channel. -/
  kind : String
  /-- Opens a session. -/
  connect (now : Nat) (channel : σ) : Reply (Except SyncError Unit) × σ
  /-- Asks the open session for what it delivers next. -/
  next (now : Nat) (channel : σ) : Reply Delivery × σ
  /-- A bound on the deliveries that the channel has at hand. -/
  size (channel : σ) : Nat

/-- Opens nothing for somebody who is not interested any more. -/
def unlessCancelled {α : Type} (cancelled : Bool) (opened : Except SyncError α) :
    Except SyncError α :=
  if cancelled then .error .cancelled else opened

/-- How the driver of a channel stands to its source. -/
inductive ChannelState where
  | disconnected
  | connecting
  | streaming
  /-- There will be no further session. -/
  | terminated
  deriving DecidableEq

namespace ChannelState

instance : Named ChannelState where
  all := [disconnected, connecting, streaming, terminated]
  name
    | disconnected => "Disconnected"
    | connecting => "Connecting"
    | streaming => "Streaming"
    | terminated => "Terminated"

end ChannelState

end FeatureFlags
