import FeatureFlags.Dict
import FeatureFlags.Json.Number
import FeatureFlags.Text.Quoted

/-!
# JSON documents

`Json` is the tree of a document. The members of an object stand in a list, sorted by name
wherever a reader made the tree, with each name once; `sorted` brings any tree into that form.

`same` is the equality that flag configurations are compared by; it differs from the equality of
trees only in that both zeros are equal. `render` is the compact text of a tree.
-/

namespace FeatureFlags

/-- The tree of a JSON document. -/
inductive Json where
  | null
  | bool (value : Bool)
  | number (value : Json.Number)
  | string (value : String)
  | array (items : List Json)
  | object (members : List (String × Json))

namespace Json

instance : Inhabited Json := ⟨.null⟩

mutual

/-- Equality of trees in which both zeros are equal. -/
def same : Json → Json → Bool
  | .null, .null => true
  | .bool x, .bool y => x == y
  | .number x, .number y => x.same y
  | .string x, .string y => x == y
  | .array xs, .array ys => sameItems xs ys
  | .object xs, .object ys => sameMembers xs ys
  | _, _ => false
termination_by structural x => x

/-- Equality of items, one by one. -/
def sameItems : List Json → List Json → Bool
  | [], [] => true
  | x :: xs, y :: ys => same x y && sameItems xs ys
  | _, _ => false
termination_by structural xs => xs

/-- Equality of members, one by one. -/
def sameMembers : List (String × Json) → List (String × Json) → Bool
  | [], [] => true
  | (k, x) :: xs, (l, y) :: ys => k == l && same x y && sameMembers xs ys
  | _, _ => false
termination_by structural xs => xs

end

mutual

/-- The compact text of a tree, with the members of an object in their order. -/
def render : Json → List Char
  | .null => "null".toList
  | .bool true => "true".toList
  | .bool false => "false".toList
  | .number n => n.render
  | .string s => Text.quoteJson s
  | .array [] => ['[', ']']
  | .array (x :: xs) => '[' :: (render x ++ (renderItems xs ++ [']']))
  | .object [] => ['\x7b', '\x7d']
  | .object ((k, x) :: xs) =>
    '\x7b' :: (Text.quoteJson k ++ ':' :: (render x ++ (renderMembers xs ++ ['\x7d'])))
termination_by structural x => x

/-- The items after the first one. -/
def renderItems : List Json → List Char
  | [] => []
  | x :: xs => ',' :: (render x ++ renderItems xs)
termination_by structural xs => xs

/-- The members after the first one. -/
def renderMembers : List (String × Json) → List Char
  | [] => []
  | (k, x) :: xs => ',' :: (Text.quoteJson k ++ ':' :: (render x ++ renderMembers xs))
termination_by structural xs => xs

end

mutual

/-- The tree with the members of every object in the order of their names. -/
def sorted : Json → Json
  | .array xs => .array (sortedItems xs)
  | .object xs => .object (Entries.sort (sortedMembers xs))
  | x => x
termination_by structural x => x

/-- The items with their members in order. -/
def sortedItems : List Json → List Json
  | [] => []
  | x :: xs => sorted x :: sortedItems xs
termination_by structural xs => xs

/-- The members with the members below them in order. -/
def sortedMembers : List (String × Json) → List (String × Json)
  | [] => []
  | (k, x) :: xs => (k, sorted x) :: sortedMembers xs
termination_by structural xs => xs

end

/-- The compact text of a tree. -/
def text (x : Json) : String := String.ofList x.render

/-- A text as a tree. -/
instance : Coe String Json := ⟨.string⟩

/-- A whole number of 64 bits as a tree. -/
def ofUInt64 (n : UInt64) : Json :=
  .number (.integer n.toNat (by have := n.toNat_lt; unfold InRange; omega))

/-- A signed number of 64 bits as a tree. -/
def ofInt64 (n : Int64) : Json :=
  .number (.integer n.toInt (by
    have := n.le_toInt
    have := n.toInt_lt
    unfold InRange
    omega))

/-- The integer of a number in the signed 64-bit range. -/
def Number.toInt64? : Number → Option Int64
  | .integer n _ => if n < 0x8000000000000000 then some (Int64.ofInt n) else none
  | .double _ => none

/-- The members of an object. -/
def toMembers? : Json → Option (Entries Json)
  | .object members => some members
  | _ => none

def toString? : Json → Option String
  | .string s => some s
  | _ => none

def toArray? : Json → Option (List Json)
  | .array items => some items
  | _ => none

def toNumber? : Json → Option Number
  | .number n => some n
  | _ => none

end Json

end FeatureFlags
