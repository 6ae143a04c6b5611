-- The text of a document: no blanks, and floating-point numbers in their shortest digits.
import CauseLists.Decimal.Shortest
import CauseLists.Json.Basic

namespace CauseLists

/-- How a floating-point number is set out: with a point and no exponent while the point stands
within the given bounds, else with one digit in front of the point and an exponent. -/
structure FloatLayout where
  /-- The most digits that may stand in front of the point. -/
  mostDigits : Nat
  /-- The most zeros that may come between the point and the first other digit. -/
  mostZeros : Nat

namespace FloatLayout

/-- Documents have up to 16 digits in front of a point, and up to four zeros right behind it. -/
def documents : FloatLayout := ⟨16, 4⟩

/-- A row of zeros. -/
def zeros (n : Int) : List Char := List.replicate n.toNat '0'

/-- The digits of a decimal set out by a layout. -/
def write (l : FloatLayout) (d : Decimal.Digits) : List Char :=
  let ds := (toString d.digits).toList
  let n : Int := ds.length
  let point := n + d.exponent
  if 0 ≤ d.exponent && point ≤ l.mostDigits then ds ++ zeros d.exponent ++ ['.', '0']
  else if 0 < point && point ≤ l.mostDigits then
    ds.take point.toNat ++ '.' :: ds.drop point.toNat
  else if -(l.mostZeros : Int) ≤ point && point ≤ 0 then
    ['0', '.'] ++ zeros (-point) ++ ds
  else
    let power := point - 1
    let mark := if power < 0 then "e-" else "e+"
    let head := match ds with
      | [c] => [c]
      | c :: rest => c :: '.' :: rest
      | [] => []
    head ++ mark.toList ++ (toString power.natAbs).toList

end FloatLayout

/-- The text of a floating-point number. -/
def floatText (x : Decimal.Binary64) : List Char :=
  let sign := if x.negative then ['-'] else []
  sign ++ (if x.isZero then ['0', '.', '0'] else FloatLayout.documents.write (Decimal.shortest x))

/-- The text of a number. -/
def Number.render : Number → String
  | .whole i => toString i
  | .float x => String.ofList (floatText x)

namespace Json

/-- One character inside quotes. -/
def escape (c : Char) : List Char :=
  if c == '"' then ['\\', '"']
  else if c == '\\' then ['\\', '\\']
  else if c == '\n' then ['\\', 'n']
  else if c == '\r' then ['\\', 'r']
  else if c == '\t' then ['\\', 't']
  else if c.toNat == 0x08 then ['\\', 'b']
  else if c.toNat == 0x0c then ['\\', 'f']
  else if c.toNat < 0x20 then ['\\', 'u', '0', '0'] ++ Text.hexDigits 2 c.toNat
  else [c]

/-- A string in quotes. -/
def quoted (s : String) : String :=
  String.ofList ('"' :: s.toList.flatMap escape ++ ['"'])

mutual

/-- The text of a document, without blanks. -/
def render : Json → String
  | .null => "null"
  | .bool true => "true"
  | .bool false => "false"
  | .number n => n.render
  | .string s => quoted s
  | .array items => "[" ++ renderItems items ++ "]"
  | .object members => "\x7b" ++ renderMembers members ++ "\x7d"

def renderItems : List Json → String
  | [] => ""
  | [x] => render x
  | x :: y :: rest => render x ++ "," ++ renderItems (y :: rest)

def renderMembers : List (String × Json) → String
  | [] => ""
  | [(k, x)] => quoted k ++ ":" ++ render x
  | (k, x) :: m :: rest => quoted k ++ ":" ++ render x ++ "," ++ renderMembers (m :: rest)

end

end Json

end CauseLists
