import FeatureFlags.Json.Basic

/-!
# Documents as written

A `Draft` is the tree of a text that may be no JSON document: every place where the text breaks
off or goes wrong stands in the tree. Members keep the order and the repetitions of the text. A
reader goes through a draft from left to right and stops at the first fault that it meets, so a
document with a fault in one place and a value of a wrong type in another has the error of the
place that comes first.

What counts as a fault depends on whether a value is wanted: a value that is skipped may hold a
number out of range or half of a surrogate pair. A `Literal` has both answers.
-/

namespace FeatureFlags.Json

/-- What is wrong with a text that is no JSON document. -/
inductive Fault where
  /-- A character that cannot stand where it stands. -/
  | malformed
  /-- The text ends inside a value. -/
  | truncated
  deriving DecidableEq

/-- A possible fault as an outcome. -/
def Fault.outcome : Option Fault → Except Fault Unit
  | none => .ok ()
  | some fault => .error fault

/-- A number or text as written: what it is worth where it is wanted, and what is wrong with it
where it is skipped. -/
structure Literal (α : Type) where
  value : Except Fault α
  skipped : Option Fault

namespace Literal

/-- A literal without a fault. -/
def ok {α : Type} (value : α) : Literal α := ⟨.ok value, none⟩

/-- A literal that is at fault in both readings. -/
def faulty {α : Type} (fault : Fault) : Literal α := ⟨.error fault, some fault⟩

end Literal

/-- A document as written. -/
inductive Draft where
  /-- The text ends where a value is due. -/
  | missing
  /-- A character that starts no value. -/
  | junk
  /-- A word that goes wrong after its first letter; the flag tells whether that was the letter of
  `null`. -/
  | misspelt (fault : Fault) (null : Bool)
  | null
  | bool (value : Bool)
  | number (literal : Literal Number)
  | string (literal : Literal String)
  /-- The items, and what is wrong where the closing bracket is due. -/
  | array (items : List Draft) (close : Option Fault)
  /-- The members, and what is wrong where the closing brace is due. What stands in the place of a
  name need not be a text; then its value is `missing` and it is the last member. -/
  | object (members : List (Draft × Draft)) (close : Option Fault)

namespace Draft

instance : Inhabited Draft := ⟨.missing⟩

/-- A text without a fault. -/
def ofString (s : String) : Draft := .string (.ok s)

mutual

/-- The draft of a tree, in which nothing is at fault. -/
def ofJson : Json → Draft
  | .null => .null
  | .bool b => .bool b
  | .number n => .number (.ok n)
  | .string s => .string (.ok s)
  | .array xs => .array (ofItems xs) none
  | .object xs => .object (ofMembers xs) none
termination_by structural x => x

/-- The drafts of the items of an array. -/
def ofItems : List Json → List Draft
  | [] => []
  | x :: xs => ofJson x :: ofItems xs
termination_by structural xs => xs

/-- The drafts of the members of an object. -/
def ofMembers : List (String × Json) → List (Draft × Draft)
  | [] => []
  | (k, x) :: xs => (ofString k, ofJson x) :: ofMembers xs
termination_by structural xs => xs

end

/-- The fault of a name that is skipped; what is no text is at fault. -/
def skipName : Draft → Except Fault Unit
  | .string literal => Fault.outcome literal.skipped
  | .missing => .error .truncated
  | _ => .error .malformed

mutual

/-- The first fault of a value that is skipped. -/
def skip : Draft → Except Fault Unit
  | .missing => .error .truncated
  | .junk => .error .malformed
  | .misspelt fault _ => .error fault
  | .null => .ok ()
  | .bool _ => .ok ()
  | .number literal => Fault.outcome literal.skipped
  | .string literal => Fault.outcome literal.skipped
  | .array items close => do
    skipItems items
    Fault.outcome close
  | .object members close => do
    skipMembers members
    Fault.outcome close
termination_by structural x => x

/-- The first fault of items that are skipped. -/
def skipItems : List Draft → Except Fault Unit
  | [] => .ok ()
  | x :: xs => do
    skip x
    skipItems xs
termination_by structural xs => xs

/-- The first fault of members that are skipped. -/
def skipMembers : List (Draft × Draft) → Except Fault Unit
  | [] => .ok ()
  | (name, x) :: xs => do
    skipName name
    skip x
    skipMembers xs
termination_by structural xs => xs

end

/-- The name of a member, which has to be a text. -/
def name : Draft → Except Fault String
  | .string literal => literal.value
  | .missing => .error .truncated
  | _ => .error .malformed

end Draft

end FeatureFlags.Json
