-- Rule sets as they are written in files. Reading a file settles its form only; whether its paths
-- and patterns mean anything is settled when the rule set is compiled.
import CauseLists.ListType
import CauseLists.Markup.Node
import CauseLists.Text.Numeral

namespace CauseLists

/-- What a written rule asks for, with its parameters. -/
inductive WrittenDemand
  | required
  | dateTime
  | date
  | fixedLength (length : Nat)
  | pattern (source : String)
  | initialOrEmpty
  | postcode
  /-- The path of a condition, seen from the holder of the target, and the value to compare. -/
  | requiredWhen (condition : String) (equals : Option Json)
deriving Repr, Inhabited

/-- One rule as it is written. -/
structure WrittenRule where
  path : String
  demand : WrittenDemand
deriving Repr, Inhabited

/-- What applies in strict mode only. -/
structure WrittenStrict where
  rules : List WrittenRule
  schema : Option Json
deriving Repr, Inhabited

/-- A rule set as it is written. -/
structure WrittenRuleSet where
  listType : ListType
  /-- Where the rules are evaluated. None at all means the root of the document. -/
  anchors : List String
  rules : List WrittenRule
  strict : Option WrittenStrict

/-! ## Reading -/

/-- The kinds of rule, under the names that files give them. -/
inductive RuleKind
  | required | dateTime | date | fixedLength | pattern | initialOrEmpty | postcode | requiredWhen
deriving DecidableEq, Repr, Inhabited

namespace RuleKind

/-- The kinds in order. -/
def all : List RuleKind :=
  [.required, .dateTime, .date, .fixedLength, .pattern, .initialOrEmpty, .postcode, .requiredWhen]

/-- The name of a kind, in files and in findings. -/
def name : RuleKind → String
  | .required => "required"
  | .dateTime => "date_time"
  | .date => "date"
  | .fixedLength => "fixed_length"
  | .pattern => "pattern"
  | .initialOrEmpty => "initial_or_empty"
  | .postcode => "postcode"
  | .requiredWhen => "conditional_required"

/-- Reads a kind by its name or by its place in the order. -/
def read? (n : Node) : Option RuleKind :=
  match n with
  | .scalar (some (.string s)) _ => all.find? (fun k => k.name == s)
  | n => (n.natural? (all.length - 1)).bind (fun i => all[i]?)

/-- The parameters of a kind. -/
def parameters : RuleKind → List String
  | .fixedLength => ["length"]
  | .pattern => ["pattern"]
  | .requiredWhen => ["when", "equals"]
  | _ => []

end RuleKind

/-- Reads the parameters that a kind of rule takes. -/
def WrittenDemand.read? (kind : RuleKind) (fields : List (String × Node)) :
    Option WrittenDemand :=
  match kind with
  | .required => some .required
  | .dateTime => some .dateTime
  | .date => some .date
  | .fixedLength => (Node.field? fields "length" (Node.natural? Text.maxWord64)).map .fixedLength
  | .pattern => (Node.field? fields "pattern" Node.string?).map .pattern
  | .initialOrEmpty => some .initialOrEmpty
  | .postcode => some .postcode
  | .requiredWhen => do
    let condition ← Node.field? fields "when" Node.string?
    let equals ← Node.fieldOr fields "equals" none (Node.optional? Node.toJson?)
    return .requiredWhen condition equals

/-- Reads one rule. Members that its kind has no use for are passed over; they only have to be
such as a document can hold. -/
def WrittenRule.read? (n : Node) : Option WrittenRule :=
  match n with
  | .mapping members => do
    let common ← n.fields? ["path", "kind"] false
    let path ← Node.field? common "path" Node.text?
    let _ ← (members.filter (fun m => m.1 != "path")).mapM (fun m => m.2.toJson?)
    let kind ← Node.field? common "kind" RuleKind.read?
    let own ← n.fields? kind.parameters false
    let demand ← WrittenDemand.read? kind own
    return ⟨path, demand⟩
  | _ => none

/-- Reads the section for strict mode. -/
def WrittenStrict.read? (n : Node) : Option WrittenStrict := do
  let fields ← n.fields? ["rules", "schema"] false
  let rules ← Node.fieldOr fields "rules" [] (Node.items? WrittenRule.read?)
  let schema ← Node.fieldOr fields "schema" none (Node.optional? Node.toJson?)
  return ⟨rules, schema⟩

/-- Reads the name of a list type. -/
def ListType.ofNode? (n : Node) : Option ListType :=
  n.text?.bind (fun text => (ListType.parse text).toOption)

/-- Reads a rule set. -/
def WrittenRuleSet.read? (n : Node) : Option WrittenRuleSet := do
  let fields ← n.fields? ["list_type", "anchors", "rules", "strict"] false
  let listType ← Node.field? fields "list_type" ListType.ofNode?
  let anchors ← Node.fieldOr fields "anchors" [] (Node.items? Node.text?)
  let rules ← Node.fieldOr fields "rules" [] (Node.items? WrittenRule.read?)
  let strict ← Node.fieldOr fields "strict" none (Node.optional? WrittenStrict.read?)
  return ⟨listType, anchors, rules, strict⟩

end CauseLists
