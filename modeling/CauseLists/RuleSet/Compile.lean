-- Compiling a written rule set. It is all or nothing: one path, pattern or schema that means
-- nothing fails the whole rule set, and the first one in the order anchors, rules, strict rules,
-- schema is the one reported.
import CauseLists.RuleSet.Basic
import CauseLists.RuleSet.Written

namespace CauseLists

/-- Why a written rule cannot be compiled. -/
inductive RuleFault
  | badPath (error : PathError)
  /-- With what the library says about it. -/
  | badPattern (reason : String)
  /-- Only a member of an object can be required on a condition. -/
  | targetNotKey
deriving DecidableEq, Repr, Inhabited

def RuleFault.message : RuleFault → String
  | .badPath e => e.message
  | .badPattern reason => "invalid regex: " ++ reason
  | .targetNotKey => "conditional_required target must end in an object key"

/-- Why a rule set is refused. -/
inductive RuleSetFault
  /-- The text is no rule set in its notation. -/
  | unreadable (kind : FileKind)
  | badAnchor (error : PathError)
  | badRule (path : String) (fault : RuleFault)
  | noRules
  | badSchema (reason : String)
  /-- Another rule set has the same list type. -/
  | duplicate
deriving DecidableEq, Repr, Inhabited

def RuleSetFault.message : RuleSetFault → String
  | .unreadable kind => kind.name ++ " parse error: not a rule set"
  | .badAnchor e => e.message
  | .badRule path fault => "rule at \"" ++ path ++ "\": " ++ fault.message
  | .noRules => "rule set declares no rules"
  | .badSchema reason => "strict schema: " ++ reason
  | .duplicate => "duplicate list type"

/-- A rule set that is refused, by the name of where it came from. -/
structure InvalidRuleSet where
  origin : String
  fault : RuleSetFault
deriving DecidableEq, Repr, Inhabited

def InvalidRuleSet.message (e : InvalidRuleSet) : String :=
  "invalid rule set " ++ e.origin ++ ": " ++ e.fault.message

/-! ## Rules -/

/-- The path that a text writes. -/
def compilePath (text : String) : Except RuleFault FieldPath :=
  (FieldPath.parse text).mapError .badPath

/-- A path whose last step is a key. -/
def FieldPath.endsInKey (p : FieldPath) : Bool :=
  match p.getLast? with
  | some (.key _) => true
  | _ => false

/-- What a written rule with a given path asks for. -/
def WrittenDemand.compile (l : Libraries) (path : FieldPath) :
    WrittenDemand → Except RuleFault Demand
  | .required => .ok .required
  | .dateTime => .ok (.format .dateTime)
  | .date => .ok (.format .date)
  | .fixedLength length => .ok (.format (.fixedLength length))
  | .pattern source =>
    match Pattern.compile l.regex source with
    | .ok p => .ok (.format (.pattern p))
    | .error reason => .error (.badPattern reason)
  | .initialOrEmpty => .ok (.format .initialOrEmpty)
  | .postcode => .ok (.format .postcode)
  | .requiredWhen condition equals =>
    if path.endsInKey then
      (compilePath condition).map (fun condition => .requiredWhen condition equals)
    else .error .targetNotKey

/-- One rule; its path comes before all else. -/
def WrittenRule.compile (l : Libraries) (r : WrittenRule) : Except RuleSetFault Rule :=
  match compilePath r.path with
  | .error fault => .error (.badRule r.path fault)
  | .ok path =>
    match r.demand.compile l path with
    | .error fault => .error (.badRule r.path fault)
    | .ok demand => .ok ⟨path, demand⟩

/-- Rules in order, or the fault of the first one that has one. -/
def compileRules (l : Libraries) : List WrittenRule → Except RuleSetFault (List Rule)
  | [] => .ok []
  | r :: rest => do
    let rule ← r.compile l
    let rules ← compileRules l rest
    return rule :: rules

/-- Anchors in order, or the fault of the first one that has one. -/
def compileAnchors : List String → Except RuleSetFault (List FieldPath)
  | [] => .ok []
  | text :: rest => do
    let anchor ← (FieldPath.parse text).mapError .badAnchor
    let anchors ← compileAnchors rest
    return anchor :: anchors

/-! ## Rule sets -/

/-- The schema of the section for strict mode, if it has one. -/
def compileSchema (l : SchemaLibrary) : Option Json → Except RuleSetFault (Option SchemaDocument)
  | none => .ok none
  | some source =>
    match SchemaDocument.compile l source with
    | .ok s => .ok (some s)
    | .error reason => .error (.badSchema reason)

/-- The rules and the schema of strict mode. -/
def compileStrict (l : Libraries) :
    Option WrittenStrict → Except RuleSetFault (List Rule × Option SchemaDocument)
  | none => .ok ([], none)
  | some strict => do
    let rules ← compileRules l strict.rules
    let schema ← compileSchema l.schema strict.schema
    return (rules, schema)

/-- The whole rule set; it has to have a base rule. -/
def WrittenRuleSet.compile (l : Libraries) (s : WrittenRuleSet) : Except RuleSetFault RuleSet := do
  let anchors ← compileAnchors s.anchors
  let rules ← compileRules l s.rules
  if rules.isEmpty then .error .noRules
  let (strictRules, schema) ← compileStrict l s.strict
  return ⟨s.listType, anchors, rules, strictRules, schema⟩

/-- Reads and compiles a rule set. -/
def RuleSet.parse (l : Libraries) (kind : FileKind) (text origin : String) :
    Except InvalidRuleSet RuleSet :=
  match (l.node? kind text).bind WrittenRuleSet.read? with
  | none => .error ⟨origin, .unreadable kind⟩
  | some written => (written.compile l).mapError (fun fault => ⟨origin, fault⟩)

end CauseLists
