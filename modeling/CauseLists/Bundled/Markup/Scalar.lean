-- Scalars of the markup: what value a plain scalar stands for, and how scalars are read across
-- lines. A break between two words is a blank, and every further one stays a break.
import CauseLists.Markup.Node
import CauseLists.Text.Numeral
import CauseLists.Text.Utf8

namespace CauseLists.Markup

/-! ## Values of plain scalars -/

/-- An optional plus sign is left out. -/
def withoutPlus : List Char → List Char
  | '+' :: rest => rest
  | cs => cs

/-- A sign. -/
def isSign (c : Char) : Bool := c == '+' || c == '-'

/-- Digits after a zero, with or without a sign, are a text. -/
def isPaddedNumeral (cs : List Char) : Bool :=
  let digits := match cs with
    | c :: rest => if isSign c then rest else cs
    | [] => []
  digits.head? == some '0' && 1 < digits.length && digits.all Text.isDigit

/-- The size of a whole number in one of its notations: hexadecimal, octal, binary or decimal. -/
def unsigned? : List Char → Option Nat
  | '0' :: 'x' :: rest => Text.readBase 16 rest
  | '0' :: 'o' :: rest => Text.readBase 8 rest
  | '0' :: 'b' :: rest => Text.readBase 2 rest
  | cs => if isPaddedNumeral cs then none else Text.readDigits cs

/-- A whole number with an optional sign. -/
def whole? (cs : List Char) : Option Int :=
  match cs with
  | '-' :: rest => (unsigned? rest).map (fun n => -(n : Int))
  | _ => (unsigned? (withoutPlus cs)).map (fun n => (n : Int))

/-- An exponent: a mark, an optional sign and digits. -/
def exponent? : List Char → Option Int
  | [] => some 0
  | c :: rest =>
    if c == 'e' || c == 'E' then
      match rest with
      | '-' :: digits => (Text.readDigits digits).map (fun n => -(n : Int))
      | _ => (Text.readDigits (withoutPlus rest)).map (fun n => (n : Int))
    else none

/-- Exponents further from zero than this are held there; they mean zero or too large. -/
def furthestExponent : Int := 100000

/-- A number with a fraction or an exponent, without a plus sign. -/
def float? (cs : List Char) : Option Decimal.Binary64 := do
  let (negative, cs) := match cs with
    | '-' :: rest => (true, rest)
    | _ => (false, cs)
  let before := cs.takeWhile Text.isDigit
  let cs := cs.dropWhile Text.isDigit
  let (after, cs) := match cs with
    | '.' :: rest => (rest.takeWhile Text.isDigit, rest.dropWhile Text.isDigit)
    | _ => ([], cs)
  if before.isEmpty && after.isEmpty then none
  let e ← exponent? cs
  let power := max (-furthestExponent) (min furthestExponent e) - after.length
  Decimal.Binary64.ofDecimal? negative (Text.valueOf (before ++ after)) power

/-- Numbers between these bounds are too large for a document, and not yet floating-point. -/
def wideLow : Int := -170141183460469231731687303715884105728
def wideHigh : Int := 340282366920938463463374607431768211455

/-- The names of what is no finite number; a document holds null instead. -/
def notFinite : List String :=
  [".inf", ".Inf", ".INF", "+.inf", "+.Inf", "+.INF", "-.inf", "-.Inf", "-.INF",
    ".nan", ".NaN", ".NAN"]

/-- The value of a plain scalar: null, a truth value, a number, or else its own text. -/
def plainValue (text : String) : Option Json :=
  let cs := text.toList
  if Node.nullTexts.contains text then some .null
  else if ["true", "True", "TRUE"].contains text then some (.bool true)
  else if ["false", "False", "FALSE"].contains text then some (.bool false)
  else if notFinite.contains text then some .null
  else
    let float : Json :=
      if isPaddedNumeral cs then .string text
      else
        let body := withoutPlus cs
        if body.length < cs.length && body.head?.any isSign then .string text
        else
          match float? body with
          | some x => .number (.float x)
          | none => .string text
    match whole? cs with
    | some i =>
      if Text.minSigned64 ≤ i && i ≤ Text.maxWord64 then some (.ofInt i)
      else if wideLow ≤ i && i ≤ wideHigh then none
      else some float
    | none => some float

/-- The node of a plain scalar. -/
def plainNode (text : String) : Node := .scalar (plainValue text) (some text)

/-- The node of a scalar in quotes: a text, whatever it says. -/
def quotedNode (text : String) : Node := .scalar (some (.string text)) (some text)

/-! ## Places in a file -/

/-- Why a file cannot be read. -/
inductive Fault
  | notText | controlCharacter
  | tabInIndent | strayCharacter | badEscape | unclosedQuote | unclosedFlow
  | misplacedKey | misplacedItem | badIndent | missingColon | missingComma
  | secondDocument | unsupported
deriving DecidableEq, Repr, Inhabited

/-- What is left of a file, and where it begins. -/
structure Cursor where
  rest : List Char
  line : Nat
  column : Nat

namespace Cursor

/-- The next character is taken; it is no break. -/
def next (c : Cursor) : Cursor := { c with rest := c.rest.drop 1, column := c.column + 1 }

end Cursor

def isSpace (c : Char) : Bool := c == ' ' || c == '\t'

/-- A blank, a break or the end comes next. -/
def endsToken : List Char → Bool
  | [] => true
  | c :: _ => isSpace c || c == '\n'

/-- Three hyphens or dots by themselves begin or end a document. -/
def isDocumentMark : List Char → Bool
  | '-' :: '-' :: '-' :: rest => endsToken rest
  | '.' :: '.' :: '.' :: rest => endsToken rest
  | _ => false

/-- A document begins or ends here, or the file does. -/
def Cursor.atEnd (c : Cursor) : Bool :=
  c.rest.isEmpty || (c.column == 0 && isDocumentMark c.rest)

/-- Skips blanks, breaks and comments. In front of the first token of a line there may be no tab,
unless brackets are open. -/
def skipFrom (flow : Bool) : (comment fresh : Bool) → (line column : Nat) → List Char →
    Except Fault Cursor
  | _, _, line, column, [] => .ok ⟨[], line, column⟩
  | comment, fresh, line, column, c :: rest =>
    if c == '\n' then skipFrom flow false true (line + 1) 0 rest
    else if comment then skipFrom flow true fresh line (column + 1) rest
    else if c == ' ' then skipFrom flow false fresh line (column + 1) rest
    else if c == '\t' then
      if flow || !fresh then skipFrom flow false fresh line (column + 1) rest
      else .error .tabInIndent
    else if c == '#' then skipFrom flow true fresh line (column + 1) rest
    else .ok ⟨c :: rest, line, column⟩

/-- Skips to the next token. -/
def Cursor.skip (flow fresh : Bool) (c : Cursor) : Except Fault Cursor :=
  skipFrom flow false fresh c.line c.column c.rest

/-! ## Plain scalars -/

/-- A bracket or a comma. -/
def isFlowMark (c : Char) : Bool :=
  c == ',' || c == '[' || c == ']' || c == '\x7b' || c == '\x7d'

/-- A plain scalar may start here. -/
def startsPlain (flow : Bool) : List Char → Bool
  | [] => false
  | c :: rest =>
    if c == '-' then !(rest.head?.any isSpace) && !endsToken rest
    else if c == '?' || c == ':' then !flow && !endsToken rest
    else !(isSpace c || c == '\n' || isFlowMark c ||
      ['#', '&', '*', '!', '|', '>', '\'', '"', '%', '@', '`'].contains c)

/-- What lies between two words: blanks of one line, or a number of breaks. -/
inductive Gap
  | blanks (reversed : List Char)
  | breaks (count : Nat)

namespace Gap

/-- The gap as it is read, put in front of the reversed text. -/
def joined (done : List Char) : Gap → List Char
  | .blanks reversed => reversed ++ done
  | .breaks count => if count ≤ 1 then ' ' :: done else List.replicate (count - 1) '\n' ++ done

def isEmpty : Gap → Bool
  | .blanks reversed => reversed.isEmpty
  | .breaks _ => false

def broken : Gap → Bool
  | .blanks _ => false
  | .breaks _ => true

/-- One more break. -/
def withBreak : Gap → Gap
  | .blanks _ => .breaks 1
  | .breaks count => .breaks (count + 1)

/-- One more blank; at the start of a line it does not count. -/
def withBlank (c : Char) : Gap → Gap
  | .blanks reversed => .blanks (c :: reversed)
  | .breaks count => .breaks count

end Gap

/-- A plain scalar that goes on while lines are indented by `indent`, and the place behind it. -/
def plainFrom (flow : Bool) (indent : Int) : (line column : Nat) → (gap : Gap) →
    (done : List Char) → List Char → Except Fault (String × Cursor)
  | line, column, _, done, [] => .ok (String.ofList done.reverse, ⟨[], line, column⟩)
  | line, column, gap, done, c :: rest =>
    let stop : Except Fault (String × Cursor) :=
      .ok (String.ofList done.reverse, ⟨c :: rest, line, column⟩)
    if c == '\n' then plainFrom flow indent (line + 1) 0 gap.withBreak done rest
    else if isSpace c then
      if c == '\t' && gap.broken && (column : Int) < indent then .error .tabInIndent
      else plainFrom flow indent line (column + 1) (gap.withBlank c) done rest
    else if gap.broken && !flow && (column : Int) < indent then stop
    else if column == 0 && isDocumentMark (c :: rest) then stop
    else if c == '#' && !gap.isEmpty then stop
    else if c == ':' && endsToken rest then stop
    else if c == ':' && flow && rest.head?.any (fun d => isFlowMark d || d == '?') then
      .error .strayCharacter
    else if flow && isFlowMark c then stop
    else plainFrom flow indent line (column + 1) (.blanks []) (c :: gap.joined done) rest

/-- A plain scalar. -/
def plain (flow : Bool) (indent : Int) (c : Cursor) : Except Fault (String × Cursor) :=
  if startsPlain flow c.rest then plainFrom flow indent c.line c.column (.blanks []) [] c.rest
  else .error .strayCharacter

/-! ## Scalars in quotes -/

/-- A text in single quotes after its first quote. Two quotes write one. -/
def singleFrom : (line column : Nat) → (gap : Gap) → (done : List Char) → List Char →
    Except Fault (String × Cursor)
  | _, _, _, _, [] => .error .unclosedQuote
  | line, column, gap, done, '\'' :: '\'' :: rest =>
    singleFrom line (column + 2) (.blanks []) ('\'' :: gap.joined done) rest
  | line, column, gap, done, c :: rest =>
    if column == 0 && isDocumentMark (c :: rest) then .error .unclosedQuote
    else if c == '\'' then
      .ok (String.ofList (gap.joined done).reverse, ⟨rest, line, column + 1⟩)
    else if c == '\n' then singleFrom (line + 1) 0 gap.withBreak done rest
    else if isSpace c then singleFrom line (column + 1) (gap.withBlank c) done rest
    else singleFrom line (column + 1) (.blanks []) (c :: gap.joined done) rest

/-- The character that an escape of one letter writes. -/
def escapeLetter? : Char → Option Char
  | '0' => some (Char.ofNat 0x00)
  | 'a' => some (Char.ofNat 0x07)
  | 'b' => some (Char.ofNat 0x08)
  | 't' => some '\t'
  | '\t' => some '\t'
  | 'n' => some '\n'
  | 'v' => some (Char.ofNat 0x0b)
  | 'f' => some (Char.ofNat 0x0c)
  | 'r' => some '\r'
  | 'e' => some (Char.ofNat 0x1b)
  | ' ' => some ' '
  | '"' => some '"'
  | '/' => some '/'
  | '\\' => some '\\'
  | 'N' => some (Char.ofNat 0x85)
  | '_' => some (Char.ofNat 0xa0)
  | 'L' => some (Char.ofNat 0x2028)
  | 'P' => some (Char.ofNat 0x2029)
  | _ => none

/-- How many digits the code behind an escape has. -/
def codeLength? : Char → Option Nat
  | 'x' => some 2
  | 'u' => some 4
  | 'U' => some 8
  | _ => none

/-- What is open between two characters of a text in double quotes. -/
inductive Escape
  | none
  | backslash
  /-- A break was escaped: the blanks after it are skipped. -/
  | joinLine
  | code (left value : Nat)

/-- A text in double quotes after its first quote. -/
def doubleFrom : (escape : Escape) → (line column : Nat) → (gap : Gap) → (done : List Char) →
    List Char → Except Fault (String × Cursor)
  | _, _, _, _, _, [] => .error .unclosedQuote
  | .code left value, line, column, gap, done, c :: rest =>
    match Text.hexValue c with
    | none => .error .badEscape
    | some d =>
      let value := value * 16 + d
      if left == 1 then
        if value.isValidChar then
          doubleFrom .none line (column + 1) gap (Char.ofNat value :: done) rest
        else .error .badEscape
      else doubleFrom (.code (left - 1) value) line (column + 1) gap done rest
  | .backslash, line, column, gap, done, c :: rest =>
    if c == '\n' then doubleFrom .joinLine (line + 1) 0 gap done rest
    else
      match codeLength? c, escapeLetter? c with
      | some count, _ => doubleFrom (.code count 0) line (column + 1) gap done rest
      | none, some e => doubleFrom .none line (column + 1) gap (e :: done) rest
      | none, none => .error .badEscape
  | .joinLine, line, column, gap, done, c :: rest =>
    if isSpace c then doubleFrom .joinLine line (column + 1) gap done rest
    else if c == '"' then .ok (String.ofList done.reverse, ⟨rest, line, column + 1⟩)
    else if c == '\\' then doubleFrom .backslash line (column + 1) gap done rest
    else if c == '\n' then doubleFrom .none (line + 1) 0 (.breaks 2) done rest
    else doubleFrom .none line (column + 1) gap (c :: done) rest
  | .none, line, column, gap, done, c :: rest =>
    if column == 0 && isDocumentMark (c :: rest) then .error .unclosedQuote
    else if c == '"' then
      .ok (String.ofList (gap.joined done).reverse, ⟨rest, line, column + 1⟩)
    else if c == '\\' then
      doubleFrom .backslash line (column + 1) (.blanks []) (gap.joined done) rest
    else if c == '\n' then doubleFrom .none (line + 1) 0 gap.withBreak done rest
    else if isSpace c then doubleFrom .none line (column + 1) (gap.withBlank c) done rest
    else doubleFrom .none line (column + 1) (.blanks []) (c :: gap.joined done) rest

/-- A scalar and the place behind it. Behind a plain scalar the place may be on a later line. -/
def scalar (flow : Bool) (indent : Int) (c : Cursor) : Except Fault (Node × Cursor) :=
  match c.rest with
  | '\'' :: rest =>
    (singleFrom c.line (c.column + 1) (.blanks []) [] rest).map (fun (s, c) => (quotedNode s, c))
  | '"' :: rest =>
    (doubleFrom .none c.line (c.column + 1) (.blanks []) [] rest).map
      (fun (s, c) => (quotedNode s, c))
  | _ => (plain flow indent c).map (fun (s, c) => (plainNode s, c))

end CauseLists.Markup
