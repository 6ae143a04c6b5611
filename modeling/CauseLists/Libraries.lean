-- What is taken from libraries: compiling regular expressions, compiling schemas, and reading files
-- of the markup. Everything else works with any libraries; the program brings its own.
import CauseLists.Json.Parser
import CauseLists.Markup.Node

namespace CauseLists

/-- A library of regular expressions. -/
structure RegexLibrary where
  /-- Compiles a text to a test that tells whether the expression matches anywhere in a value, or
  says why the text is no expression. -/
  compile : String → Except String (String → Bool)

/-- What a library of schemas finds wrong with a document. -/
structure SchemaFailure where
  /-- The pointer to the node that fails. -/
  pointer : String
  /-- The member that the node is required to have, if that is what it fails for. -/
  missing : Option String
  message : String
deriving DecidableEq, Repr, Inhabited

/-- A library of schemas. -/
structure SchemaLibrary where
  /-- Compiles a schema to what finds every failure of a document, or says why it is no schema. -/
  compile : Json → Except String (Json → List SchemaFailure)

/-- The two notations that files come in. -/
inductive FileKind
  /-- The markup. -/
  | yaml
  | json
deriving DecidableEq, Repr, Inhabited

/-- The name of a notation. -/
def FileKind.name : FileKind → String
  | .yaml => "YAML"
  | .json => "JSON"

/-- The libraries that rule sets, settings and envelopes are read with. -/
structure Libraries where
  regex : RegexLibrary
  schema : SchemaLibrary
  /-- Reads a file of the markup. -/
  yaml : String → Option Node

/-- Reads the text of a file. -/
def Libraries.node? (l : Libraries) (kind : FileKind) (text : String) : Option Node :=
  match kind with
  | .yaml => l.yaml text
  | .json => ((Json.parseWritten (Text.encode text)).map Node.ofJson).toOption

end CauseLists
