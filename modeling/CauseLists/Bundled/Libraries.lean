-- The libraries that the program brings along. They know the common part of each language and
-- refuse what they do not know.
import CauseLists.Bundled.Markup.Reader
import CauseLists.Bundled.Regex.Reader
import CauseLists.Bundled.Schema.Check
import CauseLists.Libraries

namespace CauseLists.Bundled

/-- Regular expressions whose classes are those of Unicode. -/
def regex : RegexLibrary where
  compile source :=
    match Regex.read .rules source with
    | .ok expr => .ok expr.occursIn
    | .error _ => .error "not a regular expression"

/-- Schemas of documents. -/
def schema : SchemaLibrary where
  compile source :=
    match Schema.ofJson? source with
    | some s => .ok (s.failures [])
    | none => .error "not a schema"

/-- All libraries of the program. -/
def libraries : Libraries := ⟨regex, schema, fun text => (Markup.parse text).toOption⟩

end CauseLists.Bundled
