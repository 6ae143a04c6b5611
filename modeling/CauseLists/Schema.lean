-- Schemas of documents. The library of schemas finds the failures; a report names the place that a
-- failure is about. A member that should be there is named itself, not the object that lacks it.
import CauseLists.FieldPath.Walk
import CauseLists.Libraries

namespace CauseLists

/-- A failure of a schema as it is reported. -/
structure SchemaIssue where
  location : FieldPath
  message : String
  /-- The node at the location is not there. -/
  missing : Bool
deriving DecidableEq, Repr, Inhabited

/-- The report of a failure. A place is found by its pointer, in which a key that is a numeral
cannot be told from an index. -/
def SchemaFailure.issue (f : SchemaFailure) : SchemaIssue :=
  match f.missing with
  | some member =>
    ⟨FieldPath.ofPointer f.pointer ++ [.key member], Obstacle.absent.message, true⟩
  | none => ⟨FieldPath.ofPointer f.pointer, f.message, false⟩

/-- A compiled schema with the document that it was read from. -/
structure SchemaDocument where
  source : Json
  /-- Every failure of a document, as the library gives them. -/
  failures : Json → List SchemaFailure

namespace SchemaDocument

/-- Compiles a schema. -/
def compile (l : SchemaLibrary) (source : Json) : Except String SchemaDocument :=
  (l.compile source).map (fun failures => ⟨source, failures⟩)

/-- Every failure of a document, located at the node it concerns. -/
def issues (s : SchemaDocument) (document : Json) : List SchemaIssue :=
  (s.failures document).map SchemaFailure.issue

end SchemaDocument

end CauseLists
