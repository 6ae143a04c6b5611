-- Rule sets ready to be applied: paths are read, patterns are compiled, and the schema is known to
-- be one. A rule set belongs to one list type and says the same about every document of it.
import CauseLists.FieldPath.Basic
import CauseLists.Format
import CauseLists.ListType
import CauseLists.Schema

namespace CauseLists

/-- How much of a rule set applies. The one who submits chooses it. -/
inductive Mode
  /-- The base rules. -/
  | basic
  /-- The base rules, the strict rules and the schema; a required text may not be blank. -/
  | strict
deriving DecidableEq, Repr, Inhabited

namespace Mode

/-- The mode that a flag asks for. -/
def ofFlag (strict : Bool) : Mode := if strict then .strict else .basic

def isStrict : Mode → Bool
  | .basic => false
  | .strict => true

/-- The name of a mode. -/
def name : Mode → String
  | .basic => "basic"
  | .strict => "strict"

end Mode

/-- What a rule asks of the nodes at its path. -/
inductive Demand
  /-- The node has to be there, and neither null nor an empty array. -/
  | required
  /-- What is there has to have a format; null and nothing at all are left alone. -/
  | format (format : Format)
  /-- The node is required wherever its holder has a node at the condition that is not null, and
  is equal to a value if one is given. -/
  | requiredWhen (condition : FieldPath) (equals : Option Json)
deriving Inhabited

/-- The name of a demand in findings. -/
def Demand.label : Demand → String
  | .required => "required"
  | .format f => f.label
  | .requiredWhen _ _ => "conditional_required"

/-- A rule: what is asked, and where. -/
structure Rule where
  path : FieldPath
  demand : Demand
deriving Inhabited

/-- The name of a rule in findings. -/
def Rule.label (r : Rule) : String := r.demand.label

/-- The rules of one list type. -/
structure RuleSet where
  listType : ListType
  /-- The anchors that were given. -/
  givenAnchors : List FieldPath
  /-- The rules of either mode. -/
  baseRules : List Rule
  strictRules : List Rule
  schema : Option SchemaDocument

namespace RuleSet

/-- The nodes under which the rules are evaluated; the root of the document if none was given. -/
def anchors (s : RuleSet) : List FieldPath :=
  match s.givenAnchors with
  | [] => [[]]
  | given => given

/-- The rules that apply in a mode, base rules first. -/
def rules (s : RuleSet) (mode : Mode) : List Rule :=
  match mode with
  | .basic => s.baseRules
  | .strict => s.baseRules ++ s.strictRules

/-- Strict mode asks for more than basic mode. -/
def hasStrictSection (s : RuleSet) : Bool := !s.strictRules.isEmpty || s.schema.isSome

/-- The number of rules that apply in a mode. -/
def ruleCount (s : RuleSet) (mode : Mode) : Nat := (s.rules mode).length

end RuleSet

end CauseLists
