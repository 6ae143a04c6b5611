-- Checking a document against the rules of its list type. Nothing stops at the first defect:
-- whoever has to mend a list sees everything that is wrong with it. Control characters in texts do
-- not count, so a text with breaks in it is judged as the same text without them.
import CauseLists.FieldPath.Walk
import CauseLists.Inspection.Finding
import CauseLists.RuleSet.Basic

namespace CauseLists

/-! ## Nodes that have to be there -/

/-- What a node lacks that has to be there. -/
inductive Lack
  | null
  | emptyArray
  /-- A text of nothing but white space. -/
  | blankText
deriving DecidableEq, Repr, Inhabited

def Lack.message : Lack → String
  | .null => "is null"
  | .emptyArray => "is empty"
  | .blankText => "is blank"

/-- What a required node lacks, if anything. Only strict mode minds a blank text. -/
def lack? (mode : Mode) : Json → Option Lack
  | .null => some .null
  | .array [] => some .emptyArray
  | .string s => if mode.isStrict && Text.isBlankText s then some .blankText else none
  | _ => none

/-- What is found where a node has to be. -/
def requireEnding (mode : Mode) (rule : String) : Ending → List Finding
  | .found location node =>
    match lack? mode node with
    | some lack => [⟨.structural, location, lack.message, rule⟩]
    | none => []
  | .stopped location obstacle => [⟨.structural, location, obstacle.message, rule⟩]

/-! ## Rules -/

/-- What is found where a format applies. -/
def formatEnding (format : Format) : Ending → List Finding
  | .found location node =>
    if node.isNull then []
    else
      match format.check node with
      | .ok _ => []
      | .error fault => [⟨.content, location, fault.message, format.label⟩]
  | .stopped _ _ => []

/-- A condition holds of a holder. -/
def conditionHolds (condition : FieldPath) (equals : Option Json) (holder : Json) : Bool :=
  (condition.resolve holder).any (fun ending =>
    match ending with
    | .found _ node =>
      !node.isNull && (match equals with
        | some value => node.same value
        | none => true)
    | .stopped _ _ => false)

/-- What is found at a holder whose member is required on a condition. -/
def conditionEnding (mode : Mode) (rule key : String) (condition : FieldPath)
    (equals : Option Json) : Ending → List Finding
  | .found location holder =>
    if conditionHolds condition equals holder then
      (FieldPath.resolveFrom [.key key] holder location).flatMap (requireEnding mode rule)
    else []
  | .stopped _ _ => []

/-- The findings of a rule under an anchor. -/
def Rule.findings (r : Rule) (mode : Mode) (anchor : Json) (location : FieldPath) :
    List Finding :=
  match r.demand with
  | .required =>
    (r.path.resolveFrom anchor location).flatMap (requireEnding mode r.label)
  | .format format => (r.path.resolveFrom anchor location).flatMap (formatEnding format)
  | .requiredWhen condition equals =>
    match r.path.splitLast? with
    | some (holder, .key key) =>
      (holder.resolveFrom anchor location).flatMap
        (conditionEnding mode r.label key condition equals)
    | _ => []

/-! ## Rule sets -/

namespace RuleSet

/-- What is found at an anchor and under it. -/
def anchorFindings (s : RuleSet) (mode : Mode) : Ending → List Finding
  | .found location node =>
    if node.isNull then [⟨.structural, location, Lack.null.message, "anchor"⟩]
    else (s.rules mode).flatMap (fun r => r.findings mode node location)
  | .stopped location obstacle => [⟨.structural, location, obstacle.message, "anchor"⟩]

/-- A failure of the schema as a finding. A member that is not there counts as it does for the
rules. -/
def ofSchemaIssue (i : SchemaIssue) : Finding :=
  ⟨if i.missing then .structural else .schema, i.location, i.message, "schema"⟩

/-- The findings of the schema, which applies in strict mode only. -/
def schemaIssues (s : RuleSet) (mode : Mode) (document : Json) : List Finding :=
  match mode, s.schema with
  | .strict, some schema => (schema.issues document).map ofSchemaIssue
  | _, _ => []

/-- Everything that is found in a document, in the order of anchors, rules and nodes. -/
def findings (s : RuleSet) (mode : Mode) (document : Json) : List Finding :=
  let document := document.cleaned
  s.anchors.flatMap (fun a => (a.resolve document).flatMap (s.anchorFindings mode)) ++
    s.schemaIssues mode document

/-- The violations of a document. -/
def check (s : RuleSet) (mode : Mode) (document : Json) : List Violation :=
  report (s.findings mode document)

end RuleSet

end CauseLists
