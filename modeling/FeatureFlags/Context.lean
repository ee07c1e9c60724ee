import FeatureFlags.Digest.Sha256
import FeatureFlags.Json.Reader

/-!
# Evaluation contexts

A context says for whom a flag is evaluated: a targeting key and attributes of any form.

Its fingerprint is the hash of a canonical text, in which the members of every object stand in the
order of their names. Two contexts have the same canonical text only if they have the same
targeting key and the same attributes.
-/

namespace FeatureFlags

/-- For whom a flag is evaluated. -/
structure EvaluationContext where
  targetingKey : Option String := none
  attributes : Dict Json := ∅

namespace EvaluationContext

instance : Inhabited EvaluationContext := ⟨{}⟩

/-- The value of an attribute. -/
def attribute? (context : EvaluationContext) (name : String) : Option Json :=
  context.attributes.get? name

def withTargetingKey (context : EvaluationContext) (key : String) : EvaluationContext :=
  { context with targetingKey := some key }

def withAttribute (context : EvaluationContext) (name : String) (value : Json) :
    EvaluationContext :=
  { context with attributes := context.attributes.insert name value }

/-- The form of a context in a document. -/
def record : Json.Record EvaluationContext where
  name := "EvaluationContext"
  fields := [
    .defaulted "targetingKey" (Json.Reader.optional Json.Reader.string)
      fun v c => { c with targetingKey := v },
    .defaulted "attributes"
      (fun origin x => (Json.Reader.members Json.Reader.json origin x).map Dict.ofEntries)
      fun v c => { c with attributes := v }]
  closed := false

/-- Reads a context. -/
def reader : Json.Reader EvaluationContext := record.reader {}

/-- The context as a tree. -/
def toJson (context : EvaluationContext) : Json :=
  .object <|
    (context.targetingKey.map fun key => ("targetingKey", Json.string key)).toList ++
    [("attributes", .object context.attributes.entries)]

/-- The canonical text of a context. -/
def canonical (context : EvaluationContext) : List Char :=
  let key : Json := match context.targetingKey with
    | some key => .string key
    | none => .null
  Json.render <| .object [
    ("attributes", .object (context.attributes.entries.mapValues Json.sorted)),
    ("targetingKey", key)]

/-- The hash of the canonical text, in hexadecimal. -/
def fingerprint (context : EvaluationContext) : String :=
  Sha256.hex (String.ofList context.canonical).toUTF8.toList

end EvaluationContext

end FeatureFlags
