-- Findings and the report that is made of them. A finding is raw: every rule says what it sees, and
-- several may say the same. The report says each thing once, in the order of its location, and
-- leaves out what only follows from a node that is not there.
import CauseLists.FieldPath.Basic

namespace CauseLists

/-- How a finding weighs in the report. -/
inductive Weight
  /-- A node that is absent, null, empty, blank or of no use: nothing can be said below it. -/
  | structural
  /-- A node that is there and has the wrong content. -/
  | content
  /-- A failure of the schema, which says in its own words what a rule may have said already. -/
  | schema
deriving DecidableEq, Repr, Inhabited

/-- What one rule sees in one place. -/
structure Finding where
  weight : Weight
  location : FieldPath
  reason : String
  /-- The name of the rule. -/
  rule : String
deriving DecidableEq, Repr, Inhabited

/-- One line of a report. -/
structure Violation where
  location : FieldPath
  reason : String
  rule : String
deriving DecidableEq, Repr, Inhabited

/-- A violation as people read it. -/
def Violation.text (v : Violation) : String :=
  v.location.text ++ ": " ++ v.reason ++ " [" ++ v.rule ++ "]"

/-- Violations by location, and then by reason. -/
def Violation.order (a b : Violation) : Ordering :=
  (a.location.order b.location).then (compare a.reason b.reason)

/-- Puts a violation where it belongs. Of violations with one location and one reason the first
that came stays. -/
def Violation.place (v : Violation) : List Violation → List Violation
  | [] => [v]
  | w :: rest =>
    match v.order w with
    | .lt => v :: w :: rest
    | .eq => w :: rest
    | .gt => w :: v.place rest

/-- The violation that a finding is. -/
def Finding.violation (f : Finding) : Violation := ⟨f.location, f.reason, f.rule⟩

/-! ## The report -/

/-- The places where nothing can be said below. -/
def structuralLocations (findings : List Finding) : List FieldPath :=
  (findings.filter (fun f => f.weight = .structural)).map Finding.location

/-- The findings without those of the schema. -/
def ruleFindings (findings : List Finding) : List Finding :=
  findings.filter (fun f => f.weight ≠ .schema)

/-- The findings of the schema in places that no rule has spoken for. -/
def schemaFindings (findings : List Finding) : List Finding :=
  let covered := structuralLocations findings
  findings.filter (fun f => f.weight = .schema && !covered.contains f.location)

/-- Findings as violations in order, each once. -/
def collect (findings : List Finding) : List Violation :=
  findings.foldl (fun acc f => f.violation.place acc) []

/-- The report on some findings: what the rules say and then what the schema adds, without what
lies below a place where nothing can be said. -/
def report (findings : List Finding) : List Violation :=
  let covered := structuralLocations findings
  (collect (ruleFindings findings ++ schemaFindings findings)).filter
    (fun v => !covered.any (fun p => v.location.isStrictlyBelow p))

end CauseLists
