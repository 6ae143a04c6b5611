-- Schemas of documents. A schema is read once from its own document, where every keyword has to
-- have the right form, and is then a tree of checks; keywords that are not known check nothing.
import CauseLists.Json.Basic
import CauseLists.Bundled.Regex.Reader

namespace CauseLists

/-- The types that a schema can ask for, in the order in which findings list them. -/
inductive SchemaType
  | array | boolean | integer | null | number | object | string
deriving DecidableEq, Repr, Inhabited

namespace SchemaType

def name : SchemaType → String
  | .array => "array"
  | .boolean => "boolean"
  | .integer => "integer"
  | .null => "null"
  | .number => "number"
  | .object => "object"
  | .string => "string"

/-- Every type in the order of findings. -/
def all : List SchemaType := [.array, .boolean, .integer, .null, .number, .object, .string]

/-- The type with a name. -/
def named? (name : String) : Option SchemaType := all.find? (fun t => t.name == name)

end SchemaType

/-- The bounds that a schema can set on a number. -/
inductive NumberBound
  | minimum | maximum | exclusiveMinimum | exclusiveMaximum
deriving DecidableEq, Repr, Inhabited

/-- The counts that a schema can bound. -/
inductive CountBound
  | minItems | maxItems | minLength | maxLength | minProperties | maxProperties
deriving DecidableEq, Repr, Inhabited

mutual

/-- A schema: everything, nothing, or what passes every keyword. -/
inductive Schema
  | always
  | never
  | keywords (checks : List SchemaKeyword)

/-- One check of a schema. -/
inductive SchemaKeyword
  | type (types : List SchemaType)
  | required (names : List String)
  | properties (schemas : List (String × Schema))
  /-- For the members that are not among those named. -/
  | additional (named : List String) (schema : Schema)
  | items (schema : Schema)
  | uniqueItems
  | count (bound : CountBound) (limit : Nat)
  | pattern (source : String) (expr : Expr)
  | number (bound : NumberBound) (limit : Number)
  | oneOfValues (values : List Json)
  | constant (value : Json)
  | anyOf (schemas : List Schema)
  | allOf (schemas : List Schema)
  /-- With the document of the schema, which findings show. -/
  | not (schema : Schema) (source : Json)

end

instance : Inhabited Schema := ⟨.always⟩

namespace Schema

/-! ## Plain keyword values -/

/-- A number that is whole and not below zero, as a count. -/
def count? : Json → Option Nat
  | .number (.whole i) => if 0 ≤ i then some i.toNat else none
  | .number (.float x) =>
    match x.toWhole? with
    | some i => if 0 ≤ i then some i.toNat else none
    | none => none
  | _ => none

def number? : Json → Option Number
  | .number n => some n
  | _ => none

def text? : Json → Option String
  | .string s => some s
  | _ => none

def flag? : Json → Option Bool
  | .bool b => some b
  | _ => none

/-- Different texts in an array. -/
def texts? : Json → Option (List String)
  | .array items => do
    let names ← items.mapM text?
    if names.Nodup then some names else none
  | _ => none

/-- The name of a type, or different names in an array that is not empty. A row of one name is no
different from the name. -/
def types? : Json → Option (List SchemaType)
  | .string name => (SchemaType.named? name).map (fun t => [t])
  | json => do
    let names ← texts? json
    if names.isEmpty then none
    else
      let types ← names.mapM SchemaType.named?
      some (SchemaType.all.filter (fun t => types.contains t))

def values? : Json → Option (List Json)
  | .array items => some items
  | _ => none

/-- The expression of a pattern, which may occur anywhere in a text. -/
def pattern? (json : Json) : Option (String × Expr) := do
  let source ← text? json
  match Regex.read .schemas source with
  | .ok expr => some (source, expr)
  | .error _ => none

/-- The names of the members that a schema lists. -/
def listedNames (members : List (String × Json)) : List String :=
  match members.lookup "properties" with
  | some (.object properties) => properties.map Prod.fst
  | _ => []

/-- The check of a keyword whose value holds no schema; `some none` if there is nothing to check,
`none` if the value does not have the right form. -/
def plainKeyword (key : String) (value : Json) : Option (Option SchemaKeyword) :=
  let counted (bound : CountBound) := (count? value).map (fun n => some (.count bound n))
  let bounded (bound : NumberBound) := (number? value).map (fun n => some (.number bound n))
  match key with
  | "type" => (types? value).map (fun ts => some (.type ts))
  | "required" => (texts? value).map (fun names => some (.required names))
  | "minItems" => counted .minItems
  | "maxItems" => counted .maxItems
  | "minLength" => counted .minLength
  | "maxLength" => counted .maxLength
  | "minProperties" => counted .minProperties
  | "maxProperties" => counted .maxProperties
  | "minimum" => bounded .minimum
  | "maximum" => bounded .maximum
  | "exclusiveMinimum" => bounded .exclusiveMinimum
  | "exclusiveMaximum" => bounded .exclusiveMaximum
  | "uniqueItems" => (flag? value).map (fun b => if b then some .uniqueItems else none)
  | "pattern" => (pattern? value).map (fun (source, expr) => some (.pattern source expr))
  | "enum" => (values? value).map (fun values => some (.oneOfValues values))
  | "const" => some (some (.constant value))
  | "title" | "description" | "format" | "$comment" | "$schema" | "$id" | "$anchor" =>
    (text? value).map (fun _ => none)
  | "deprecated" | "readOnly" | "writeOnly" => (flag? value).map (fun _ => none)
  | "examples" => (values? value).map (fun _ => none)
  | "$ref" | "$dynamicRef" => none
  | _ => some none

/-! ## Reading -/

mutual

/-- Reads a schema; `none` if a keyword has a value of the wrong form. -/
def ofJson? : Json → Option Schema
  | .bool true => some .always
  | .bool false => some .never
  | .object members => (keywords? (listedNames members) members).map .keywords
  | _ => none

/-- Reads keywords; `listed` are the members that the schema names. -/
def keywords? (listed : List String) : List (String × Json) → Option (List SchemaKeyword)
  | [] => some []
  | (key, value) :: rest => do
    let here ← keyword? listed key value
    let more ← keywords? listed rest
    some (here.toList ++ more)

/-- Reads one keyword. -/
def keyword? (listed : List String) (key : String) : Json → Option (Option SchemaKeyword)
  | .array items =>
    match key with
    | "anyOf" => if items.isEmpty then none else (schemas? items).map (fun ss => some (.anyOf ss))
    | "allOf" => if items.isEmpty then none else (schemas? items).map (fun ss => some (.allOf ss))
    | "properties" | "additionalProperties" | "items" | "not" | "$defs" => none
    | _ => plainKeyword key (.array items)
  | .object members =>
    match key with
    | "properties" => (named? members).map (fun ss => some (.properties ss))
    | "$defs" => (named? members).map (fun _ => none)
    | "additionalProperties" =>
      (keywords? (listedNames members) members).map
        (fun ks => some (.additional listed (.keywords ks)))
    | "items" =>
      (keywords? (listedNames members) members).map (fun ks => some (.items (.keywords ks)))
    | "not" =>
      (keywords? (listedNames members) members).map
        (fun ks => some (.not (.keywords ks) (.object members)))
    | "anyOf" | "allOf" => none
    | _ => plainKeyword key (.object members)
  | value =>
    match key with
    | "additionalProperties" => (ofBool? value).map (fun s => some (.additional listed s))
    | "items" => (ofBool? value).map (fun s => some (.items s))
    | "not" => (ofBool? value).map (fun s => some (.not s value))
    | "properties" | "$defs" | "anyOf" | "allOf" => none
    | _ => plainKeyword key value

/-- Reads the schemas of an array. -/
def schemas? : List Json → Option (List Schema)
  | [] => some []
  | x :: xs => do
    let s ← ofJson? x
    let ss ← schemas? xs
    some (s :: ss)

/-- Reads the schemas of an object. -/
def named? : List (String × Json) → Option (List (String × Schema))
  | [] => some []
  | (name, x) :: xs => do
    let s ← ofJson? x
    let ss ← named? xs
    some ((name, s) :: ss)

/-- Reads the two schemas that are written as truth values. -/
def ofBool? : Json → Option Schema
  | .bool b => some (if b then .always else .never)
  | _ => none

end

end Schema

end CauseLists
