-- Nodes of a rule file, a settings file or an envelope file, whichever of the two notations it is
-- written in. The members of a mapping keep their order and may repeat a key; what a repeated key
-- means is for the reader of the mapping to say.
import CauseLists.Json.Basic

namespace CauseLists

/-- A node of a file. -/
inductive Node
  /-- A value, and the text that stands for it where a text is asked for. A number that no document
  can hold has no value. -/
  | scalar (value : Option Json) (text : Option String)
  | sequence (items : List Node)
  | mapping (members : List (String × Node))
deriving Inhabited

namespace Node

mutual

/-- The node of a document. Only its strings stand for texts. -/
def ofJson : Json → Node
  | .array items => .sequence (ofItems items)
  | .object members => .mapping (ofMembers members)
  | .string s => .scalar (some (.string s)) (some s)
  | json => .scalar (some json) none

def ofItems : List Json → List Node
  | [] => []
  | x :: xs => ofJson x :: ofItems xs

def ofMembers : List (String × Json) → List (String × Node)
  | [] => []
  | (k, x) :: xs => (k, ofJson x) :: ofMembers xs

end

mutual

/-- The document that a node writes. -/
def toJson? : Node → Option Json
  | .scalar value _ => value
  | .sequence items => (toItems? items).map .array
  | .mapping members => (toMembers? members).map .ofMembers

def toItems? : List Node → Option (List Json)
  | [] => some []
  | x :: xs => do
    let y ← toJson? x
    let ys ← toItems? xs
    some (y :: ys)

def toMembers? : List (String × Node) → Option (List (String × Json))
  | [] => some []
  | (k, x) :: xs => do
    let y ← toJson? x
    let ys ← toMembers? xs
    some ((k, y) :: ys)

end

/-- The spellings of null. -/
def nullTexts : List String := ["", "~", "null", "Null", "NULL"]

/-- Null, in any spelling. What is no finite number has the value null and is not spelled so. -/
def isNull : Node → Bool
  | .scalar (some .null) (some text) => nullTexts.contains text
  | .scalar (some .null) none => true
  | _ => false

/-- Nothing was written at all. -/
def isBlank : Node → Bool
  | .scalar (some .null) (some text) => text.isEmpty
  | _ => false

/-! ## Typed readings -/

/-- A text; a plain value of any kind stands for its own text. -/
def text? : Node → Option String
  | .scalar _ text => text
  | _ => none

/-- A text that is one by its value as well. -/
def string? : Node → Option String
  | .scalar (some (.string s)) _ => some s
  | _ => none

/-- A whole number within bounds. -/
def integer? (low high : Int) : Node → Option Int
  | .scalar (some (.number (.whole i))) _ => if low ≤ i && i ≤ high then some i else none
  | _ => none

/-- A natural number up to a bound. -/
def natural? (limit : Nat) (n : Node) : Option Nat := (n.integer? 0 limit).map Int.toNat

/-- A value that may be null. -/
def optional? {α : Type} (read : Node → Option α) (n : Node) : Option (Option α) :=
  if n.isNull then some none else (read n).map some

/-- The items of a sequence; nothing at all is an empty one. -/
def items? {α : Type} (read : Node → Option α) (n : Node) : Option (List α) :=
  match n with
  | .sequence items => items.mapM read
  | n => if n.isBlank then some [] else none

/-- The fields of a record: a mapping, in which no field may be repeated, or a sequence of its
fields in order; nothing at all is an empty one. `closed` records have no other fields. -/
def fields? (names : List String) (closed : Bool) (n : Node) : Option (List (String × Node)) :=
  match n with
  | .mapping members =>
    let known := members.filter (fun m => names.contains m.1)
    if !(known.map Prod.fst).Nodup then none
    else if closed && known.length < members.length then none
    else some known
  | .sequence items => if names.length < items.length then none else some (names.zip items)
  | n => if n.isBlank then some [] else none

/-- A field with a reader, or a value in place of it if it is not there. -/
def fieldOr {α : Type} (fields : List (String × Node)) (name : String) (default : α)
    (read : Node → Option α) : Option α :=
  match fields.lookup name with
  | some n => read n
  | none => some default

/-- A field that has to be there. -/
def field? {α : Type} (fields : List (String × Node)) (name : String) (read : Node → Option α) :
    Option α :=
  (fields.lookup name).bind read

end Node

end CauseLists
