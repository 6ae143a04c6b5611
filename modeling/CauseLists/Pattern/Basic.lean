-- Patterns of rules. A pattern is put in a group between the two ends of a value and compiled as a
-- whole by the library of regular expressions.
import CauseLists.Libraries

namespace CauseLists

/-- A pattern that values have to match from end to end, with the text it was written as. -/
structure Pattern where
  source : String
  /-- The compiled test. -/
  accepts : String → Bool

namespace Pattern

/-- The text that is compiled for a pattern. -/
def anchored (source : String) : String := "^(?:" ++ source ++ ")$"

/-- Compiles a pattern for whole values. -/
def compile (l : RegexLibrary) (source : String) : Except String Pattern :=
  (l.compile (anchored source)).map (fun test => ⟨source, test⟩)

end Pattern

end CauseLists
