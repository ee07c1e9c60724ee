import FeatureFlags.Channel.Basic
import FeatureFlags.Files
import FeatureFlags.Text.Utf8

/-!
# A channel that watches a file

The channel reads a document from a file, and again whenever something happens in the directory of
the file or an interval has passed. A document is delivered when it differs from the last one. A
file that cannot be read any more ends the session.
-/

namespace FeatureFlags

/-- What was read from a file. -/
structure FileContents where
  text : String
  /-- When the file was changed, if that is known. -/
  version : Option String := none
  deriving DecidableEq

/-- A file that is watched. -/
structure FileChannel where
  path : String
  pollInterval : Duration := .ofMilliseconds 5000

namespace FileChannel

/-- How long changes are gathered before the file is read. -/
def debounce : Duration := .ofMilliseconds 50

/-- How long the channel waits for a change before it reads the file all the same. -/
def interval (channel : FileChannel) : Duration := channel.pollInterval.max debounce

/-- Where the documents come from. -/
def origin (path : String) : SyncMetadata := .ofEntries [("source", "file"), ("path", path)]

/-- Begins to watch the directory of the file. -/
def watch (channel : FileChannel) (files : Files) : Except SyncError Unit :=
  if (Files.fileName? channel.path).isNone then .error (.notAFileName channel.path)
  else if files.isDirectory (Files.directoryOf channel.path) then .ok ()
  else .error (.watch "No such file or directory (os error 2)")

/-- Reads the file. -/
def read (channel : FileChannel) (files : Files) (version : Option String) :
    Except SyncError FileContents :=
  match files channel.path with
  | none => .error (.io "No such file or directory (os error 2)")
  | some .directory => .error (.io "Is a directory (os error 21)")
  | some (.file bytes) =>
    match Utf8.decode? bytes with
    | none => .error (.io "stream did not contain valid UTF-8")
    | some text => .ok { text, version }

end FileChannel

/-- An open session. -/
structure FileSession where
  path : String
  /-- The document that was read last. -/
  current : String
  /-- What has been read first, until it is delivered. -/
  first : Option SyncMessage := none
  finished : Bool := false

namespace FileSession

/-- The message with a document. -/
def message (path : String) (contents : FileContents) : SyncMessage :=
  .configuration ⟨.full contents.text, contents.version, FileChannel.origin path⟩

/-- Opens a session with what is read first. -/
def start (path : String) (contents : FileContents) : FileSession :=
  { path, current := contents.text, first := some (message path contents) }

/-- Takes what is read next. -/
def step (session : FileSession) (read : Except SyncError FileContents) :
    Option Delivery × FileSession :=
  if session.finished then (none, session)
  else
    match read with
    | .error error => (some (.failed error), { session with finished := true })
    | .ok contents =>
      if contents.text = session.current then (none, session)
      else
        (some (.message (message session.path contents)),
          { session with current := contents.text })

/-- What is delivered to somebody who asks while the file can be read. -/
def next (session : FileSession) (read : Except SyncError FileContents) :
    Option Delivery × FileSession :=
  match session.first with
  | some message => (some (.message message), { session with first := none })
  | none => if session.finished then (some .ended, session) else session.step read

end FileSession

/-- Opens a session: the directory is watched before the file is read, so that no change in between
is missed. -/
def FileChannel.connect (channel : FileChannel) (files : Files) (version : Option String) :
    Except SyncError FileSession := do
  channel.watch files
  let contents ← channel.read files version
  return .start channel.path contents

end FeatureFlags
