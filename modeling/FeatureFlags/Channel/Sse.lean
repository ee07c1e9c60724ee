import FeatureFlags.Channel.EventStream
import FeatureFlags.Channel.Http
import FeatureFlags.Text.Blank

/-!
# A channel that listens to a stream of events

The server keeps a stream open on which it sends whole documents, changes and signs of life; the
identifier of an event is the version of what it carries. When nothing arrives for some time, the
data becomes doubtful, and after another such time without any event the session breaks off.
-/

namespace FeatureFlags

/-- A server that sends a stream of events. -/
structure SseChannel where
  target : HttpTarget
  /-- How long the stream may be silent. -/
  staleAfter : Duration := .ofMilliseconds 60000

/-- What comes of waiting for an event. -/
inductive StreamRead where
  | event (event : StreamEvent)
  /-- Nothing arrived for the time that the stream may be silent. -/
  | silence
  | broken (detail : String)
  | ended

namespace StreamRead

/-- What is read of a stream that was received as a whole. -/
def ofBytes (bytes : List UInt8) : List StreamRead :=
  let (text, complete) := Utf8.decodeLeading bytes
  (StreamEvent.ofText text).map event ++
    [if complete then ended else broken "the stream is not a text"]

end StreamRead

/-- An open session. -/
structure SseSession where
  staleAfter : Duration
  origin : SyncMetadata
  /-- Whether the last time was silent. -/
  silent : Bool := false
  finished : Bool := false

namespace SseSession

/-- The message that an event carries. -/
def message? (session : SseSession) (event : StreamEvent) : Option SyncMessage :=
  let version := if event.id = "" then none else some event.id
  let update (content : PayloadContent) : SyncMessage :=
    .configuration ⟨content, version, session.origin⟩
  if event.event = "heartbeat" then some .heartbeat
  else if Text.isBlankText event.data then none
  else
    match event.event with
    | "configuration" => some (update (.full event.data))
    | "message" => some (update (.full event.data))
    | "patch" => some (update (.delta event.data))
    | _ => none

/-- Takes what came of waiting for an event. -/
def step (session : SseSession) (read : StreamRead) : Option Delivery × SseSession :=
  if session.finished then (none, session)
  else
    match read with
    | .event event =>
      ((session.message? event).map .message, { session with silent := false })
    | .silence =>
      if session.silent then
        (some (.failed (.idle session.staleAfter)), { session with finished := true })
      else
        let reason := "no events for " ++ toString session.staleAfter.milliseconds ++ " ms"
        (some (.message (.degraded reason)), { session with silent := true })
    | .broken detail => (some (.failed (.stream detail)), { session with finished := true })
    | .ended => (some .ended, { session with finished := true })

/-- What the session delivers. -/
def deliveries : SseSession → List StreamRead → List Delivery
  | _, [] => []
  | session, read :: reads =>
    let (delivery, session) := session.step read
    delivery.toList ++ deliveries session reads

end SseSession

namespace SseChannel

/-- The path of the stream below the address of a server. -/
def path : String := "/sync/stream"

/-- The request that opens the stream. -/
def request (channel : SseChannel) : HttpRequest :=
  { channel.target.request with accept := "text/event-stream", cacheControl := some "no-cache" }

/-- Opens a session with the answer of a server. -/
def connect (channel : SseChannel) (reply : HttpReply) : Except SyncError SseSession :=
  reply.accepted.map fun _ =>
    { staleAfter := channel.staleAfter.max (.ofMilliseconds 1)
      origin := channel.target.origin "sse" }

end SseChannel

end FeatureFlags
