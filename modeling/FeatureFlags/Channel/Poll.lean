import FeatureFlags.Channel.Http

/-!
# A channel that asks again and again

The channel asks the server for the whole document, again after each interval. It remembers the tag
of the last document, so that the server can answer that nothing has changed, which is taken as a
sign of life. Every session begins without a tag, so its first document is always delivered.

An isolated failure only makes the data doubtful. A second one in a row ends the session.
-/

namespace FeatureFlags

/-- A server that is asked again and again, and the tag of the last document. -/
structure PollChannel where
  target : HttpTarget
  interval : Duration := .ofMilliseconds 30000
  etag : Option String := none

namespace PollChannel

/-- The path of the document below the address of a server. -/
def path : String := "/sync/flags"

/-- The channel as it is when a session is opened. -/
def restart (channel : PollChannel) : PollChannel := { channel with etag := none }

/-- The next request. -/
def request (channel : PollChannel) : HttpRequest :=
  { channel.target.request with ifNoneMatch := channel.etag }

/-- Where a document comes from. -/
def origin (channel : PollChannel) (etag : Option String) : SyncMetadata :=
  etag.elim (channel.target.origin "poll") ((channel.target.origin "poll").insert "etag")

/-- What comes of a request. -/
def fetch (channel : PollChannel) (reply : HttpReply) :
    Except SyncError SyncMessage × PollChannel :=
  match reply.accepted with
  | .error error => (.error error, channel)
  | .ok response =>
    if response.status = HttpResponse.notModified then (.ok .heartbeat, channel)
    else
      match response.text with
      | .error error => (.error error, channel)
      | .ok text =>
        let etag := response.etagText?
        (.ok (.configuration ⟨.full text, etag, channel.origin etag⟩), { channel with etag })

end PollChannel

/-- An open session, which has asked the server at least once. -/
structure PollSession where
  /-- Whether the last request failed. -/
  failing : Bool := false
  finished : Bool := false

namespace PollSession

/-- Takes what came of a request. -/
def step (session : PollSession) (fetched : Except SyncError SyncMessage) :
    Option Delivery × PollSession :=
  if session.finished then (none, session)
  else
    match fetched with
    | .ok message => (some (.message message), { session with failing := false })
    | .error error =>
      if session.failing then (some (.failed error), { session with finished := true })
      else (some (.message (.degraded error.message)), { session with failing := true })

end PollSession

namespace PollChannel

/-- Goes through the answers of a server in an open session. The requests are given with what is
delivered. -/
def poll : List HttpReply → PollChannel → PollSession →
    List HttpRequest × List Delivery × PollChannel
  | [], channel, _ => ([], [], channel)
  | reply :: replies, channel, session =>
    if session.finished then ([], [], channel)
    else
      let request := channel.request
      let (fetched, channel) := channel.fetch reply
      let (delivery, session) := session.step fetched
      let (requests, deliveries, channel) := poll replies channel session
      (request :: requests, delivery.toList ++ deliveries, channel)

/-- Opens a session with the first answer of a server, and goes through the others. -/
def run (channel : PollChannel) (first : HttpReply) (replies : List HttpReply) :
    List HttpRequest × Except SyncError (List Delivery) × PollChannel :=
  let channel := channel.restart
  let request := channel.request
  match channel.fetch first with
  | (.error error, channel) => ([request], .error error, channel)
  | (.ok message, channel) =>
    let (requests, deliveries, channel) := channel.poll replies {}
    (request :: requests, .ok (.message message :: deliveries), channel)

end PollChannel

end FeatureFlags
