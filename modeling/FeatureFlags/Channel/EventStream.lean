import FeatureFlags.Text.Utf8

/-!
# Event streams

A stream of events is a text of lines. A line gives a field of the event that is being gathered, and
a blank line completes the event; one without data is not handed out. The identifier is kept for the
events that follow. What is incomplete at the end of the stream does not count.
-/

namespace FeatureFlags

/-- An event of a stream. -/
structure StreamEvent where
  event : String
  data : String
  id : String
  deriving DecidableEq

/-- A line of a stream. -/
inductive StreamLine where
  | field (name value : String)
  | comment
  | blank
  deriving DecidableEq

namespace StreamLine

/-- The complete lines of a text. A line ends with a line feed, a carriage return or both. A
carriage return at the very end may be half of an end, so it does not count as one. -/
def split (text : List Char) : List (List Char) := go [] text
where
  /-- Gathers a line, the last character first. -/
  go (line : List Char) : List Char → List (List Char)
    | [] => []
    | '\r' :: '\n' :: rest => line.reverse :: go [] rest
    | ['\r'] => []
    | '\r' :: rest => line.reverse :: go [] rest
    | '\n' :: rest => line.reverse :: go [] rest
    | c :: rest => go (c :: line) rest

/-- What a line says. A blank after the colon does not belong to the value. -/
def ofChars (line : List Char) : StreamLine :=
  match line with
  | [] => blank
  | ':' :: _ => comment
  | _ =>
    let name := line.takeWhile (· != ':')
    let value :=
      match (line.dropWhile (· != ':')).drop 1 with
      | ' ' :: value => value
      | value => value
    field (String.ofList name) (String.ofList value)

end StreamLine

/-- The event that is being gathered. -/
structure EventDraft where
  event : String := ""
  data : List String := []
  id : String := ""

namespace EventDraft

/-- Completes the event. -/
def dispatch (draft : EventDraft) : Option StreamEvent × EventDraft :=
  let rest : EventDraft := { id := draft.id }
  if draft.data.isEmpty then (none, rest)
  else
    let event := if draft.event = "" then "message" else draft.event
    (some ⟨event, "\n".intercalate draft.data, draft.id⟩, rest)

/-- Takes a line. -/
def step (draft : EventDraft) : StreamLine → Option StreamEvent × EventDraft
  | .blank => draft.dispatch
  | .comment => (none, draft)
  | .field "event" value => (none, { draft with event := value })
  | .field "data" value => (none, { draft with data := draft.data ++ [value] })
  | .field "id" value =>
    (none, if value.toList.contains '\x00' then draft else { draft with id := value })
  | .field _ _ => (none, draft)

/-- The events that lines complete. -/
def events : EventDraft → List StreamLine → List StreamEvent
  | _, [] => []
  | draft, line :: lines =>
    let (event, draft) := draft.step line
    event.toList ++ events draft lines

end EventDraft

/-- The events of a stream. -/
def StreamEvent.ofText (text : String) : List StreamEvent :=
  ({} : EventDraft).events ((StreamLine.split text.toList).map StreamLine.ofChars)

end FeatureFlags
