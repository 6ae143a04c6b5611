-- Checking a document against a schema. A failure names the node it is about by a pointer; one
-- about a member that should be there names the object that lacks it.
import CauseLists.Bundled.Schema.Basic
import CauseLists.FieldPath.Basic
import CauseLists.Json.Printer
import CauseLists.Libraries

namespace CauseLists

namespace SchemaType

/-- A document is of a type. A number without a fraction is an integer. -/
def admits (t : SchemaType) (node : Json) : Bool :=
  match t, node with
  | .array, .array _ => true
  | .boolean, .bool _ => true
  | .integer, .number (.whole _) => true
  | .integer, .number (.float x) => x.toWhole?.isSome
  | .null, .null => true
  | .number, .number _ => true
  | .object, .object _ => true
  | .string, .string _ => true
  | _, _ => false

end SchemaType

/-! ## Numbers by value -/

namespace Number

/-- A number as a quotient. -/
def quotient : Number → Int × Nat
  | .whole i => (i, 1)
  | .float x => (x.signedNumerator, x.magnitude.2)

/-- The order of two numbers by value. -/
def order (a b : Number) : Ordering :=
  compare (a.quotient.1 * b.quotient.2) (b.quotient.1 * a.quotient.2)

end Number

namespace Json

mutual

/-- The same document by value: a whole number equals a floating-point number of its value. -/
def equalByValue : Json → Json → Bool
  | .null, .null => true
  | .bool a, .bool b => a == b
  | .number a, .number b => a.order b == .eq
  | .string a, .string b => a == b
  | .array xs, .array ys => equalItemsByValue xs ys
  | .object xs, .object ys => equalMembersByValue xs ys
  | _, _ => false

def equalItemsByValue : List Json → List Json → Bool
  | [], [] => true
  | x :: xs, y :: ys => equalByValue x y && equalItemsByValue xs ys
  | _, _ => false

def equalMembersByValue : List (String × Json) → List (String × Json) → Bool
  | [], [] => true
  | (k, x) :: xs, (l, y) :: ys => k == l && equalByValue x y && equalMembersByValue xs ys
  | _, _ => false

end

/-- No two documents of a row are equal by value. -/
def allDifferent : List Json → Bool
  | [] => true
  | x :: xs => !xs.any (equalByValue x) && allDifferent xs

end Json

namespace Schema

/-! ## Wordings -/

/-- A number of things; the plural is left for one. -/
def amount (n : Nat) (one many : String) : String :=
  toString n ++ " " ++ (if n == 1 then one else many)

/-- A text in quotes, as it stands. -/
def inQuotes (s : String) : String := "\"" ++ s ++ "\""

def typeMessage (node : Json) (types : List SchemaType) : String :=
  match types with
  | [t] => node.render ++ " is not of type " ++ inQuotes t.name
  | types =>
    node.render ++ " is not of types " ++
      ", ".intercalate (types.map (fun t => inQuotes t.name))

/-- The message of a count that leaves its bound. -/
def countMessage (node : Json) (limit : Nat) : CountBound → String
  | .minItems => node.render ++ " has less than " ++ amount limit "item" "items"
  | .maxItems => node.render ++ " has more than " ++ amount limit "item" "items"
  | .minLength => node.render ++ " is shorter than " ++ amount limit "character" "characters"
  | .maxLength => node.render ++ " is longer than " ++ amount limit "character" "characters"
  | .minProperties => node.render ++ " has less than " ++ amount limit "property" "properties"
  | .maxProperties => node.render ++ " has more than " ++ amount limit "property" "properties"

/-- The message of a number that leaves its bound. -/
def boundMessage (node : Json) (limit : Number) : NumberBound → String
  | .minimum => node.render ++ " is less than the minimum of " ++ limit.render
  | .maximum => node.render ++ " is greater than the maximum of " ++ limit.render
  | .exclusiveMinimum =>
    node.render ++ " is less than or equal to the minimum of " ++ limit.render
  | .exclusiveMaximum =>
    node.render ++ " is greater than or equal to the maximum of " ++ limit.render

/-- The message about members that should not be there. -/
def additionalMessage (names : List String) : String :=
  let quoted := names.map (fun n => "'" ++ n ++ "'")
  "Additional properties are not allowed (" ++ ", ".intercalate quoted ++
    (if names.length == 1 then " was" else " were") ++ " unexpected)"

/-! ## Bounds -/

/-- What a bound on a count counts in a node, if it says anything about it. -/
def counted? (node : Json) : CountBound → Option Nat
  | .minItems | .maxItems =>
    match node with
    | .array items => some items.length
    | _ => none
  | .minLength | .maxLength =>
    match node with
    | .string s => some s.length
    | _ => none
  | .minProperties | .maxProperties =>
    match node with
    | .object members => some members.length
    | _ => none

/-- The bound is a lower one. -/
def isLower : CountBound → Bool
  | .minItems | .minLength | .minProperties => true
  | .maxItems | .maxLength | .maxProperties => false

/-- A number keeps a bound. -/
def keeps (n limit : Number) : NumberBound → Bool
  | .minimum => n.order limit != .lt
  | .maximum => n.order limit != .gt
  | .exclusiveMinimum => n.order limit == .gt
  | .exclusiveMaximum => n.order limit == .lt

/-! ## Checking -/

/-- One failure of a node. -/
def here (place : FieldPath) (message : String) : List SchemaFailure :=
  [⟨place.pointer, none, message⟩]

/-- Nothing, or one failure of a node. -/
def findUnless (ok : Bool) (place : FieldPath) (message : String) : List SchemaFailure :=
  if ok then [] else here place message

mutual

/-- Every failure of a schema at a node and below it. -/
def failures : Schema → FieldPath → Json → List SchemaFailure
  | .always, _, _ => []
  | .never, place, node => here place ("False schema does not allow " ++ node.render)
  | .keywords checks, place, node => failuresOfAll checks place node

def failuresOfAll : List SchemaKeyword → FieldPath → Json → List SchemaFailure
  | [], _, _ => []
  | k :: ks, place, node => failuresOf k place node ++ failuresOfAll ks place node

/-- Every failure of one keyword. -/
def failuresOf : SchemaKeyword → FieldPath → Json → List SchemaFailure
  | .type types, place, node =>
    findUnless (types.any (fun t => t.admits node)) place (typeMessage node types)
  | .required names, place, node =>
    match node with
    | .object members =>
      (names.filter (fun n => (members.lookup n).isNone)).map
        (fun n => ⟨place.pointer, some n, inQuotes n ++ " is a required property"⟩)
    | _ => []
  | .properties schemas, place, node =>
    match node with
    | .object members => failuresOfMembers schemas members place
    | _ => []
  | .additional named schema, place, node =>
    match node with
    | .object members =>
      let others := members.filter (fun m => !named.contains m.1)
      match schema with
      | .never =>
        findUnless others.isEmpty place (additionalMessage (others.map Prod.fst))
      | schema => others.flatMap (fun m => failures schema (place ++ [.key m.1]) m.2)
    | _ => []
  | .items schema, place, node =>
    match node with
    | .array items =>
      items.zipIdx.flatMap (fun (item, i) => failures schema (place ++ [.index i]) item)
    | _ => []
  | .uniqueItems, place, node =>
    match node with
    | .array items =>
      findUnless (Json.allDifferent items) place (node.render ++ " has non-unique elements")
    | _ => []
  | .count bound limit, place, node =>
    match counted? node bound with
    | some n =>
      let ok := if isLower bound then limit ≤ n else n ≤ limit
      findUnless ok place (countMessage node limit bound)
    | none => []
  | .pattern source expr, place, node =>
    match node with
    | .string s =>
      findUnless (expr.occursIn s) place (node.render ++ " does not match " ++ inQuotes source)
    | _ => []
  | .number bound limit, place, node =>
    match node with
    | .number n => findUnless (keeps n limit bound) place (boundMessage node limit bound)
    | _ => []
  | .oneOfValues values, place, node =>
    findUnless (values.any (fun v => v.equalByValue node)) place
      (node.render ++ " is not one of " ++ (Json.array values).render)
  | .constant value, place, node =>
    findUnless (value.equalByValue node) place (value.render ++ " was expected")
  | .anyOf schemas, place, node =>
    findUnless (someAccepts schemas node) place
      (node.render ++ " is not valid under any of the schemas listed in the 'anyOf' keyword")
  | .allOf schemas, place, node => failuresOfEach schemas place node
  | .not schema source, place, node =>
    findUnless (!(failures schema [] node).isEmpty) place
      (source.render ++ " is not allowed for " ++ node.render)

/-- Every failure of the schemas of members. -/
def failuresOfMembers : List (String × Schema) → List (String × Json) → FieldPath →
    List SchemaFailure
  | [], _, _ => []
  | (name, schema) :: rest, members, place =>
    (match members.lookup name with
      | some value => failures schema (place ++ [.key name]) value
      | none => []) ++ failuresOfMembers rest members place

/-- Every failure of each of some schemas. -/
def failuresOfEach : List Schema → FieldPath → Json → List SchemaFailure
  | [], _, _ => []
  | s :: ss, place, node => failures s place node ++ failuresOfEach ss place node

/-- Some schema has no failure. -/
def someAccepts : List Schema → Json → Bool
  | [], _ => false
  | s :: ss, node => (failures s [] node).isEmpty || someAccepts ss node

end

end Schema

end CauseLists
