-- Reading values of a known form from a document: texts, words of a vocabulary, records. A record
-- may come as an object or as a row of its fields. Of several faults in an object the one under
-- the least key is reported, and a field that is not there is missed only after all others hold.
import CauseLists.Json.Printer
import CauseLists.Text.Blank

namespace CauseLists

/-- Why a document does not have the form asked for. -/
inductive FormError
  | unexpected (found expected : String)
  | missing (field : String)
  | unknownWord (word : String) (known : List String)
  | wrongLength (length : Nat) (expected : String)
  | notOneMember
  /-- The text was read, and it is no text of the type. -/
  | rejected (reason : String)
deriving DecidableEq, Repr, Inhabited

/-- A word between backticks. -/
def ticked (word : String) : String := "`" ++ word ++ "`"

/-- The words that would have done. -/
def knownWords : List String → String
  | [] => "there are no variants"
  | [a] => "expected " ++ ticked a
  | [a, b] => "expected " ++ ticked a ++ " or " ++ ticked b
  | known => "expected one of " ++ ", ".intercalate (known.map ticked)

def FormError.message : FormError → String
  | .unexpected found expected => "invalid type: " ++ found ++ ", expected " ++ expected
  | .missing field => "missing field " ++ ticked field
  | .unknownWord word known => "unknown variant " ++ ticked word ++ ", " ++ knownWords known
  | .wrongLength length expected =>
    "invalid length " ++ toString length ++ ", expected " ++ expected
  | .notOneMember => "invalid value: map, expected map with a single key"
  | .rejected reason => reason

namespace Json

/-- One character of a text that an error shows between quotes. -/
def shown (c : Char) : List Char :=
  match c with
  | '"' => ['\\', '"']
  | '\\' => ['\\', '\\']
  | '\n' => ['\\', 'n']
  | '\r' => ['\\', 'r']
  | '\t' => ['\\', 't']
  | '\x00' => ['\\', '0']
  | _ =>
    if Text.isControl c then
      ['\\', 'u', '\x7b'] ++ (Text.hexDigits 8 c.toNat).dropWhile (fun d => d == '0') ++ ['\x7d']
    else [c]

/-- What was found in place of something else. -/
def found : Json → String
  | .null => "null"
  | .bool b => "boolean " ++ ticked (if b then "true" else "false")
  | .number (.whole i) => "integer " ++ ticked (toString i)
  | .number (.float x) => "floating point " ++ ticked (Number.float x).render
  | .string s => "string \"" ++ String.ofList (s.toList.flatMap shown) ++ "\""
  | .array _ => "sequence"
  | .object _ => "map"

/-- Reads a text. -/
def asText : Json → Except FormError String
  | .string s => .ok s
  | json => .error (.unexpected json.found "a string")

/-- Reads a value that may be null. -/
def asOption {α : Type} (read : Json → Except FormError α) : Json → Except FormError (Option α)
  | .null => .ok none
  | json => (read json).map some

/-- Reads one of a row of words. A word may also stand as the only key of an object, over null. -/
def asWord {α : Type} (known : List (String × α)) (json : Json) : Except FormError α :=
  let choose (word : String) : Except FormError α :=
    match known.lookup word with
    | some a => .ok a
    | none => .error (.unknownWord word (known.map Prod.fst))
  match json with
  | .string word => choose word
  | .object [(word, value)] =>
    match choose word with
    | .ok a => if value.isNull then .ok a else .error (.unexpected value.found "unit")
    | .error e => .error e
  | .object _ => .error .notOneMember
  | _ => .error (.unexpected json.found "string or map")

end Json

/-! ## Records -/

/-- A field of a record. -/
structure FormField where
  name : String
  /-- A row may end before this field. -/
  defaulted : Bool
  check : Json → Except FormError Unit

/-- A field with a reader. -/
def FormField.ofReader {α : Type} (name : String) (read : Json → Except FormError α)
    (defaulted : Bool) : FormField :=
  ⟨name, defaulted, fun json => (read json).map (fun _ => ())⟩

/-- A record by its title and its fields in order. -/
structure RecordForm where
  title : String
  fields : List FormField

namespace RecordForm

/-- The members of an object, each checked in the order in which it stands; members that are no
field are passed over. -/
def checkMembers (r : RecordForm) : List (String × Json) → Except FormError Unit
  | [] => .ok ()
  | (key, value) :: rest =>
    match r.fields.find? (fun f => f.name == key) with
    | some f =>
      match f.check value with
      | .ok _ => r.checkMembers rest
      | .error e => .error e
    | none => r.checkMembers rest

/-- The members that a row gives, field by field. `index` counts the fields before. -/
def ofRow (whole : String) : (index : Nat) → List FormField → List Json →
    Except FormError (List (String × Json))
  | _, [], _ => .ok []
  | index, f :: fields, [] =>
    if f.defaulted then ofRow whole (index + 1) fields [] else .error (.wrongLength index whole)
  | index, f :: fields, value :: row =>
    match f.check value with
    | .ok _ => (ofRow whole (index + 1) fields row).map (fun ms => (f.name, value) :: ms)
    | .error e => .error e

/-- A number of things, with an s after its noun unless there is one. -/
def counted (n : Nat) (noun : String) : String :=
  toString n ++ " " ++ noun ++ (if n == 1 then "" else "s")

/-- The members of a record, checked. -/
def members (r : RecordForm) : Json → Except FormError (List (String × Json))
  | .object ms => (r.checkMembers ms).map (fun _ => ms)
  | .array row =>
    match ofRow (r.title ++ " with " ++ counted r.fields.length "element") 0 r.fields row with
    | .error e => .error e
    | .ok ms =>
      if r.fields.length < row.length then
        .error (.wrongLength row.length "fewer elements in array")
      else .ok ms
  | json => .error (.unexpected json.found r.title)

end RecordForm

/-- The value of a field that has to be there. -/
def requiredMember {α : Type} (members : List (String × Json)) (name : String)
    (read : Json → Except FormError α) : Except FormError α :=
  match members.lookup name with
  | some value => read value
  | none => .error (.missing name)

/-- The value of a field that may be null or not there at all. -/
def optionalMember {α : Type} (members : List (String × Json)) (name : String)
    (read : Json → Except FormError α) : Except FormError (Option α) :=
  match members.lookup name with
  | some value => Json.asOption read value
  | none => .ok none

end CauseLists
