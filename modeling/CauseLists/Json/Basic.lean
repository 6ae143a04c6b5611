-- JSON documents. A document is a tree; an object keeps its members in the order of their keys
-- and has each key once, which the readers see to. The functions here look a key up by its first
-- member and so need no such promise.
import CauseLists.Decimal.Binary64
import CauseLists.Text.Blank
import CauseLists.Text.Numeral

namespace CauseLists

/-- A number: a whole number of 64 bits, or a floating-point number. `1` and `1.0` differ. -/
inductive Number
  | whole (value : Int)
  | float (value : Decimal.Binary64)
deriving DecidableEq, Repr, Inhabited

/-- The same number: of the same kind and the same value, the two zeros being one value. -/
def Number.same : Number → Number → Bool
  | .whole i, .whole j => i == j
  | .float x, .float y => x.sameValue y
  | _, _ => false

/-- A JSON document. -/
inductive Json
  | null
  | bool (value : Bool)
  | number (value : Number)
  | string (value : String)
  | array (items : List Json)
  | object (members : List (String × Json))
deriving Repr, Inhabited

/-- The kinds of node that findings name. -/
inductive Kind
  | null | bool | number | string | array | object
deriving DecidableEq, Repr, Inhabited

/-- How a finding names a kind. -/
def Kind.phrase : Kind → String
  | .null => "null"
  | .bool => "a boolean"
  | .number => "a number"
  | .string => "a string"
  | .array => "an array"
  | .object => "an object"

namespace Json

/-- The kind of a node. -/
def kind : Json → Kind
  | .null => .null
  | .bool _ => .bool
  | .number _ => .number
  | .string _ => .string
  | .array _ => .array
  | .object _ => .object

def isNull : Json → Bool
  | .null => true
  | _ => false

/-- The member of an object with a key. -/
def member? (key : String) : Json → Option Json
  | .object members => members.lookup key
  | _ => none

/-- The element of an array at an index. -/
def element? (index : Nat) : Json → Option Json
  | .array items => items[index]?
  | _ => none

/-- The number of an integer of 64 bits. -/
def ofInt (i : Int) : Json := .number (.whole i)

/-- A text, or null where there is none. -/
def ofOption {α : Type} (f : α → Json) : Option α → Json
  | some a => f a
  | none => .null

/-! ## The same document -/

mutual

/-- The same document: the same tree, with numbers compared by `Number.same`. -/
def same : Json → Json → Bool
  | .null, .null => true
  | .bool a, .bool b => a == b
  | .number a, .number b => a.same b
  | .string a, .string b => a == b
  | .array xs, .array ys => sameItems xs ys
  | .object xs, .object ys => sameMembers xs ys
  | _, _ => false

/-- The same documents in the same order. -/
def sameItems : List Json → List Json → Bool
  | [], [] => true
  | x :: xs, y :: ys => same x y && sameItems xs ys
  | _, _ => false

/-- The same members in the same order. -/
def sameMembers : List (String × Json) → List (String × Json) → Bool
  | [], [] => true
  | (k, x) :: xs, (l, y) :: ys => k == l && same x y && sameMembers xs ys
  | _, _ => false

end

/-! ## Members in the order of their keys -/

/-- Puts a member where its key belongs; a member with that key is replaced. -/
def putMember (key : String) (value : Json) : List (String × Json) → List (String × Json)
  | [] => [(key, value)]
  | (k, v) :: rest =>
    if key < k then (key, value) :: (k, v) :: rest
    else if key = k then (key, value) :: rest
    else (k, v) :: putMember key value rest

/-- The members in the order of their keys; of members with one key the last stays. -/
def sortMembers (members : List (String × Json)) : List (String × Json) :=
  members.foldl (fun acc m => putMember m.1 m.2 acc) []

mutual

/-- The document with the members of every object in the order of their keys, and of members
with one key only the last. -/
def canonical : Json → Json
  | .array items => .array (canonicalItems items)
  | .object members => .object (sortMembers (canonicalMembers members))
  | json => json

def canonicalItems : List Json → List Json
  | [] => []
  | x :: xs => canonical x :: canonicalItems xs

def canonicalMembers : List (String × Json) → List (String × Json)
  | [] => []
  | (k, x) :: xs => (k, canonical x) :: canonicalMembers xs

end

/-- An object from its members, in any order. -/
def ofMembers (members : List (String × Json)) : Json := .object (sortMembers members)

/-! ## Control characters -/

mutual

/-- Applies a change to every string of the document; keys stay as they are. -/
def mapStrings (f : String → String) : Json → Json
  | .string s => .string (f s)
  | .array items => .array (mapStringsItems f items)
  | .object members => .object (mapStringsMembers f members)
  | json => json

def mapStringsItems (f : String → String) : List Json → List Json
  | [] => []
  | x :: xs => mapStrings f x :: mapStringsItems f xs

def mapStringsMembers (f : String → String) : List (String × Json) → List (String × Json)
  | [] => []
  | (k, x) :: xs => (k, mapStrings f x) :: mapStringsMembers f xs

end

mutual

/-- Some string of the document passes a test. -/
def anyString (p : String → Bool) : Json → Bool
  | .string s => p s
  | .array items => anyStringItems p items
  | .object members => anyStringMembers p members
  | _ => false

def anyStringItems (p : String → Bool) : List Json → Bool
  | [] => false
  | x :: xs => anyString p x || anyStringItems p xs

def anyStringMembers (p : String → Bool) : List (String × Json) → Bool
  | [] => false
  | (_, x) :: xs => anyString p x || anyStringMembers p xs

end

/-- Some string of the document holds a control character. -/
def hasControls (json : Json) : Bool := json.anyString (fun s => s.toList.any Text.isControl)

/-- The document with the control characters taken out of its strings. -/
def withoutControls (json : Json) : Json := json.mapStrings Text.withoutControls

/-- The document without control characters; one that has none is left as it is. -/
def cleaned (json : Json) : Json := if json.hasControls then json.withoutControls else json

end Json

end CauseLists
