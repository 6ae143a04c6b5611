-- Paths as documents: a path travels as its text.
import CauseLists.FieldPath.Basic
import CauseLists.Json.Form

namespace CauseLists.FieldPath

/-- Reads a path. -/
def read (json : Json) : Except FormError FieldPath := do
  let text ← json.asText
  match FieldPath.parse text with
  | .ok p => .ok p
  | .error e => .error (.rejected e.message)

/-- A path as a document. -/
def toJson (p : FieldPath) : Json := .string p.text

end CauseLists.FieldPath
