import FeatureFlags.Json.Reader

/-!
# Values with names

A type of finitely many values, each of which has one name in documents.
-/

namespace FeatureFlags

/-- A type whose values have names in documents. -/
class Named (α : Type) where
  /-- All values, in the order in which messages list them. -/
  all : List α
  name : α → String

namespace Named

variable {α : Type} [Named α]

/-- The names with their values. -/
def table : List (String × α) := all.map fun a => (name a, a)

/-- The value that has the given name. -/
def ofName? (s : String) : Option α := (table (α := α)).lookup s

/-- Reads a value by its name. -/
def reader : Json.Reader α := Json.Reader.variant table

/-- The name of a value as a document. -/
def toJson (a : α) : Json := .string (name a)

end Named

end FeatureFlags
