-- The verdict on a body: the document that it holds, or the report on why it is refused.
import CauseLists.Inspection.Check
import CauseLists.Json.Parser

namespace CauseLists

/-- A body that is refused. -/
structure BodyReport where
  /-- The list type that it was checked against, if one is known. -/
  listType : Option ListType
  /-- Everything that is wrong with it. -/
  violations : List Violation
deriving DecidableEq, Repr

namespace BodyReport

/-- The lines of a report. -/
def lines (violations : List Violation) : String :=
  "\n".intercalate (violations.map (fun v => "  - " ++ v.text))

def message (r : BodyReport) : String :=
  "payload for " ++ ((r.listType.map ListType.name).getD "unknown list type") ++
    " failed validation with " ++ toString r.violations.length ++ " violation(s):\n" ++
    lines r.violations

/-- Something is wrong at a location. -/
def mentions (r : BodyReport) (location : FieldPath) : Bool :=
  r.violations.any (fun v => v.location = location)

/-- The report on a body that is no document at all. -/
def unparsable (listType : Option ListType) (error : JsonError) : BodyReport :=
  ⟨listType, [⟨[], "body is not valid JSON: " ++ error.message, "json"⟩]⟩

end BodyReport

namespace RuleSet

/-- Accepts a document without violations. -/
def judge (s : RuleSet) (mode : Mode) (document : Json) : Except BodyReport Unit :=
  match s.check mode document with
  | [] => .ok ()
  | violations => .error ⟨some s.listType, violations⟩

/-- Accepts a body that is a document without violations, and gives the document. -/
def judgeBody (s : RuleSet) (mode : Mode) (body : Bytes) : Except BodyReport Json :=
  match Json.parse body with
  | .error e => .error (.unparsable (some s.listType) e)
  | .ok document => (s.judge mode document).map (fun _ => document)

end RuleSet

end CauseLists
