import FeatureFlags.Flag.Value

/-!
# Resolutions

What a caller gets who asks for the value of a flag. A resolution never fails: whatever goes wrong,
the caller gets the default that was handed in, with the reason and the error beside it.
-/

namespace FeatureFlags

/-- Why a value was returned. -/
inductive Reason where
  /-- The flag has no targeting, and its default variant was served. -/
  | static
  /-- Targeting selected nothing, and the default variant was served. -/
  | default
  | targetingMatch
  /-- The flag is disabled, and the caller's default was served. -/
  | disabled
  | error
  deriving DecidableEq

instance : Named Reason where
  all := [.static, .default, .targetingMatch, .disabled, .error]
  name
    | .static => "STATIC"
    | .default => "DEFAULT"
    | .targetingMatch => "TARGETING_MATCH"
    | .disabled => "DISABLED"
    | .error => "ERROR"

/-- The kinds of errors of resolutions and providers. -/
inductive ErrorType where
  | flagNotFound
  | parseError
  | typeMismatch
  | general
  | providerNotReady
  | invalidContext
  deriving DecidableEq

instance : Named ErrorType where
  all := [.flagNotFound, .parseError, .typeMismatch, .general, .providerNotReady, .invalidContext]
  name
    | .flagNotFound => "FLAG_NOT_FOUND"
    | .parseError => "PARSE_ERROR"
    | .typeMismatch => "TYPE_MISMATCH"
    | .general => "GENERAL"
    | .providerNotReady => "PROVIDER_NOT_READY"
    | .invalidContext => "INVALID_CONTEXT"

/-- Why a resolution fell back to the caller's default. -/
structure ResolutionError where
  errorType : ErrorType
  message : String
  deriving DecidableEq

namespace ResolutionError

instance : Inhabited ResolutionError := ⟨.general, ""⟩

/-- The error in one line. -/
def text (error : ResolutionError) : String := Named.name error.errorType ++ ": " ++ error.message

/-- The form of an error in a document. -/
def record : Json.Record ResolutionError where
  name := "ResolutionError"
  fields := [
    .needed "error_type" Named.reader fun v e => { e with errorType := v },
    .needed "message" Json.Reader.string fun v e => { e with message := v }]
  closed := false

def reader : Json.Reader ResolutionError := record.reader default

/-- The error as a tree. -/
def toJson (error : ResolutionError) : Json :=
  .object [("error_type", Named.toJson error.errorType), ("message", .string error.message)]

end ResolutionError

/-- A variant that was selected for a caller. -/
structure Evaluated where
  variant : String
  value : FlagValue
  reason : Reason
  metadata : Metadata

/-- The outcome of resolving a flag. -/
structure ResolutionDetails (α : Type) where
  value : α
  variant : Option String
  reason : Reason
  error : Option ResolutionError
  metadata : Metadata

namespace ResolutionDetails

/-- The caller's default with an error. -/
def ofError {α : Type} (fallback : α) (error : ResolutionError) : ResolutionDetails α :=
  ⟨fallback, none, .error, some error, ∅⟩

/-- The caller's default for a flag that is disabled. -/
def ofDisabled {α : Type} (fallback : α) (metadata : Metadata) : ResolutionDetails α :=
  ⟨fallback, none, .disabled, none, metadata⟩

/-- The value of a variant that was selected. -/
def ofValue {α : Type} (value : α) (evaluated : Evaluated) : ResolutionDetails α :=
  ⟨value, some evaluated.variant, evaluated.reason, none, evaluated.metadata⟩

end ResolutionDetails

end FeatureFlags
