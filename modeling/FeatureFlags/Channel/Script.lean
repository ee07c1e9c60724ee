import FeatureFlags.Channel.Basic

/-!
# A channel with a script

A script tells for each session how long it takes to open, and then either why it cannot be opened
or what it delivers and how long it waits in between. Once the script is exhausted, no session can
be opened.
-/

namespace FeatureFlags

/-- A step of an open session. -/
inductive ScriptItem where
  | deliver (delivery : Delivery)
  | sleep (milliseconds : Nat)
  /-- Waits for ever. -/
  | pend
  deriving DecidableEq

/-- The script of a session. -/
structure ScriptedSession where
  /-- The milliseconds that it takes to open. -/
  openAfter : Nat := 0
  outcome : Except SyncError (List ScriptItem)

/-- The items of a session, its end counted as well. -/
def ScriptedSession.size (session : ScriptedSession) : Nat :=
  match session.outcome with
  | .error _ => 1
  | .ok items => items.length + 1

/-- The sessions to come, and where the present one stands. -/
structure ScriptChannel where
  sessions : List ScriptedSession
  /-- What is left of the open session. -/
  items : List ScriptItem := []
  /-- When the present wait ends. -/
  wake : Option Nat := none
  /-- When sessions were asked for, the last one first. -/
  opens : List Nat := []

namespace ScriptChannel

/-- Whether a wait is over that takes some milliseconds if it has not begun yet; if not, when it
will be. -/
def wait (channel : ScriptChannel) (now milliseconds : Nat) : Option Nat :=
  let due := channel.wake.getD (now + milliseconds)
  if due ≤ now then none else some due

/-- Opens the next session of the script. -/
def connect (now : Nat) (channel : ScriptChannel) : Reply (Except SyncError Unit) × ScriptChannel :=
  let channel :=
    if channel.wake.isNone then { channel with opens := now :: channel.opens } else channel
  match channel.sessions with
  | [] => (.ready (.error (.unavailable "script exhausted")), channel)
  | session :: sessions =>
    match channel.wait now session.openAfter with
    | some due => (.pending (some due), { channel with wake := some due })
    | none =>
      let channel := { channel with sessions, wake := none }
      match session.outcome with
      | .error error => (.ready (.error error), channel)
      | .ok items => (.ready (.ok ()), { channel with items })

/-- Goes on with the open session. -/
def next (now : Nat) (channel : ScriptChannel) : Reply Delivery × ScriptChannel :=
  go channel.items channel
where
  /-- Goes through what is left up to the next delivery. -/
  go (items : List ScriptItem) (channel : ScriptChannel) : Reply Delivery × ScriptChannel :=
    match items with
    | [] => (.ready .ended, { channel with items := [] })
    | .deliver delivery :: rest => (.ready delivery, { channel with items := rest })
    | .sleep milliseconds :: rest =>
      match channel.wait now milliseconds with
      | some due => (.pending (some due), { channel with items, wake := some due })
      | none => go rest { channel with wake := none }
    | .pend :: _ => (.pending none, { channel with items })

instance : Channel ScriptChannel where
  kind := "scripted"
  connect := connect
  next := next
  size channel :=
    channel.items.length + 1 + channel.sessions.foldr (fun session n => session.size + n) 0

end ScriptChannel

end FeatureFlags
