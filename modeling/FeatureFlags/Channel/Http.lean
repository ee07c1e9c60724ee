import FeatureFlags.Channel.Basic
import FeatureFlags.Text.FormEncoded

/-!
# Requests to a server

A channel that speaks to a server sends requests to one address, with a selector that narrows down
what it wants and a token that shows who it is. The server's answer is taken if its status says that
it succeeded, or that nothing was modified.
-/

namespace FeatureFlags

/-- A request. -/
structure HttpRequest where
  url : String
  authorization : Option String := none
  ifNoneMatch : Option String := none
  accept : String := "*/*"
  cacheControl : Option String := none
  deriving DecidableEq

/-- The answer of a server. -/
structure HttpResponse where
  status : Nat
  /-- The bytes of the tag of the version. -/
  etag : Option (List UInt8) := none
  /-- The bytes of the body, or why it could not be read to its end. -/
  body : Except String (List UInt8)

/-- What comes of a request: an answer, or why there is none. -/
abbrev HttpReply := Except String HttpResponse

/-- Where and how requests are sent. -/
structure HttpTarget where
  url : String
  selector : Option String := none
  token : Option String := none

namespace HttpTarget

/-- A request without anything that only one kind of channel adds. -/
def request (target : HttpTarget) : HttpRequest where
  url := target.selector.elim target.url fun selector =>
    target.url ++ "?selector=" ++ Text.formEncoded selector
  authorization := target.token.map ("Bearer " ++ ·)

/-- Where the configurations of a kind of channel come from. -/
def origin (target : HttpTarget) (kind : String) : SyncMetadata :=
  .ofEntries (("source", kind) :: (target.selector.map fun s => ("selector", s)).toList)

end HttpTarget

namespace HttpResponse

/-- The status of an answer that confirms what the asker has. -/
def notModified : Nat := 304

def isAccepted (response : HttpResponse) : Bool :=
  (200 ≤ response.status && response.status ≤ 299) || response.status == notModified

/-- The text of the body. -/
def text (response : HttpResponse) : Except SyncError String :=
  match response.body with
  | .ok bytes => .ok (Utf8.decodeLossy bytes)
  | .error detail => .error (.connect detail)

/-- The tag of the version, if it consists of visible characters of ASCII. -/
def etagText? (response : HttpResponse) : Option String :=
  (response.etag.filter fun bytes =>
    bytes.all fun b => b == 0x09 || (0x20 ≤ b && b < 0x7F)).map Utf8.decodeLossy

end HttpResponse

/-- The answer to a request, unless it failed. -/
def HttpReply.accepted (reply : HttpReply) : Except SyncError HttpResponse :=
  match reply with
  | .error detail => .error (.connect detail)
  | .ok response =>
    if response.isAccepted then .ok response
    else
      .error (.http response.status <|
        match response.text with
        | .ok text => text
        | .error _ => "")

end FeatureFlags
