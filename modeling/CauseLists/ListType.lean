-- List types: the names that publications go by, such as CROWN_DAILY_LIST. Any name in the right
-- form is a list type; which ones are known is for the rule registry to say. The text of a list
-- type is canonical by its type, so it is safe as a part of a path.
import CauseLists.Text.Blank

namespace CauseLists

namespace ListType

/-- A character of a canonical name other than the underscore. -/
def isWordChar (c : Char) : Bool := ('A' ≤ c && c ≤ 'Z') || ('0' ≤ c && c ≤ '9')

/-- The words of a name: its parts between underscores. -/
def words (name : String) : List (List Char) := name.toList.splitOn '_'

/-- Words of capital ASCII letters and digits, each followed by at most one underscore and none
of them empty. -/
def isCanonical (name : String) : Bool :=
  (words name).all (fun w => !w.isEmpty && w.all isWordChar)

end ListType

/-- A list type by its canonical name. -/
structure ListType where
  name : String
  canonical : ListType.isCanonical name = true
deriving DecidableEq, Repr

/-- A text that names no list type. -/
structure ListTypeError where
  value : String
deriving DecidableEq, Repr, Inhabited

def ListTypeError.message (e : ListTypeError) : String :=
  "invalid list type: \"" ++ e.value ++ "\" (expected upper-case words separated by underscores)"

namespace ListType

/-- The list type that a text names, whatever the case of its letters and the blanks around it. -/
def parse (text : String) : Except ListTypeError ListType :=
  let name := Text.upperAscii (Text.trim text)
  if h : isCanonical name = true then .ok ⟨name, h⟩ else .error ⟨text⟩

/-- List types in the order of their names. -/
def precedes (a b : ListType) : Bool := a.name < b.name

end ListType

end CauseLists
