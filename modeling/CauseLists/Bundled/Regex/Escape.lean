-- The escapes of patterns, and what else the readers of patterns share: the faults, the flags that
-- hold at a place, and the blanks that a verbose pattern ignores. A reader gives what it read with
-- the characters after it. Classes by the properties of characters are not known and are refused.
import CauseLists.Pattern.Expr
import CauseLists.Text.Numeral

namespace CauseLists

namespace Regex

/-- Why a text is no pattern. -/
inductive Fault
  | unopenedGroup | unclosedGroup | unclosedClass
  | nothingToRepeat | badCount
  | badEscape | badCode | badRange | badClassEscape
  | badGroupName | badFlags | lookAround
  | unknownProperty | notText
  | tooDeep | tooLarge
deriving DecidableEq, Repr, Inhabited

/-- What a reader is told about the pattern around it. -/
structure Flags where
  caseless : Bool
  multiLine : Bool
  dotMatchesAll : Bool
  crLines : Bool
  unicode : Bool
  verbose : Bool
deriving DecidableEq, Repr

/-- Which pattern language is read. -/
structure Dialect where
  /-- The classes of digits, blanks and word characters are those of ASCII. -/
  asciiClasses : Bool
deriving DecidableEq, Repr

/-- No flag is set but that for Unicode. -/
def Flags.standard : Flags := ⟨false, false, false, false, true, false⟩

/-- A set holds what is no single byte. Without the flag for Unicode no set may do so. -/
def beyondAscii (s : CharSet) : Bool :=
  (List.range 0x80).any (fun i => s.contains (Char.ofNat (0x80 + i)))

/-- A character that may stand where it does: without the flag for Unicode, none that takes several
bytes may be looked at byte by byte. -/
def isReadable (f : Flags) (c : Char) : Bool := f.unicode || c.toNat < 0x80

/-! ## Blanks and comments of verbose patterns -/

/-- Skips blanks, and comments to the end of their line. -/
def skipVerbose : (comment : Bool) → List Char → List Char
  | _, [] => []
  | true, c :: rest => skipVerbose (c != '\n') rest
  | false, c :: rest =>
    if Text.isBlank c then skipVerbose false rest
    else if c == '#' then skipVerbose true rest
    else c :: rest

/-- What a pattern ignores if it is verbose. -/
def skip (f : Flags) (cs : List Char) : List Char :=
  if f.verbose then skipVerbose false cs else cs

/-! ## Escapes -/

/-- What an escape stands for. -/
inductive Escaped
  | char (c : Char)
  | set (chars : CharSet)
  | assertion (a : Assertion)

/-- Punctuation and control characters of ASCII stand for themselves behind a backslash. -/
def isEscapable (c : Char) : Bool :=
  c.toNat < 0x80 && !c.isAlphanum && c != '<' && c != '>'

/-- The character of a hexadecimal code. -/
def charOfCode (digits : List Char) : Except Fault Char :=
  match Text.readBase 16 digits with
  | some n => if n.isValidChar then .ok (Char.ofNat n) else .error .badCode
  | none => .error .badCode

/-- A code in braces. -/
def bracedCode (f : Flags) :
    (digits : List Char) → List Char → Except Fault (Char × List Char)
  | _, [] => .error .badEscape
  | digits, c :: rest =>
    if c == '}' then (charOfCode digits.reverse).map (fun c => (c, rest))
    else if f.verbose && Text.isBlank c then bracedCode f digits rest
    else if (Text.hexValue c).isSome then bracedCode f (c :: digits) rest
    else .error .badCode

/-- A code of a fixed number of digits. -/
def fixedCode (f : Flags) :
    (count : Nat) → (digits : List Char) → List Char → Except Fault (Char × List Char)
  | 0, digits, cs => (charOfCode digits.reverse).map (fun c => (c, skip f cs))
  | count + 1, digits, cs =>
    match skip f cs with
    | [] => .error .badEscape
    | c :: rest =>
      if (Text.hexValue c).isSome then fixedCode f count (c :: digits) rest else .error .badCode

/-- A character by its code, after the letter that says how long the code is. -/
def code (f : Flags) (count : Nat) (cs : List Char) : Except Fault (Char × List Char) :=
  match skip f cs with
  | [] => .error .badEscape
  | '\x7b' :: rest => bracedCode f [] rest
  | cs => fixedCode f count [] cs

/-- The classes that a letter stands for, of every script or of ASCII. -/
def letterClass (ascii : Bool) : Char → CharSet
  | 'd' => if ascii then .between '0' '9' else .digits
  | 's' =>
    if ascii then .unions [.range 0x09 0x0d, .single ' '] else .blanks
  | _ =>
    if ascii then
      .unions [.between '0' '9', .between 'A' 'Z', .single '_', .between 'a' 'z']
    else .wordChars

/-- The special edges of words that a name in braces stands for. -/
def wordEdgeNamed (ascii : Bool) (name : List Char) : Except Fault Assertion :=
  if name = "start".toList then .ok (.wordStart ascii)
  else if name = "end".toList then .ok (.wordEnd ascii)
  else if name = "start-half".toList then .ok (.noWordBefore ascii)
  else if name = "end-half".toList then .ok (.noWordAfter ascii)
  else .error .badEscape

/-- A letter of the name of an edge. -/
def isEdgeLetter (c : Char) : Bool := c.isAlpha || c == '-'

/-- An edge of a word; braces behind it name a special one, unless they hold a count. -/
def wordEdge (f : Flags) (cs : List Char) : Except Fault (Escaped × List Char) :=
  let ascii := !f.unicode
  match cs with
  | '\x7b' :: inner =>
    let inner := skip f inner
    match inner with
    | [] => .error .badEscape
    | c :: _ =>
      if isEdgeLetter c then
        match inner.dropWhile isEdgeLetter with
        | '}' :: rest =>
          (wordEdgeNamed ascii (inner.takeWhile isEdgeLetter)).map (fun a => (.assertion a, rest))
        | _ => .error .badEscape
      else .ok (.assertion (.wordEdge ascii), cs)
  | _ => .ok (.assertion (.wordEdge ascii), cs)

/-- What follows a backslash. -/
def escape (d : Dialect) (f : Flags) (cs : List Char) :
    Except Fault (Escaped × List Char) :=
  let ascii := d.asciiClasses || !f.unicode
  match cs with
  | [] => .error .badEscape
  | c :: rest =>
    match c with
    | 'x' => (code f 2 rest).map (fun (c, rest) => (.char c, rest))
    | 'u' => (code f 4 rest).map (fun (c, rest) => (.char c, rest))
    | 'U' => (code f 8 rest).map (fun (c, rest) => (.char c, rest))
    | 'd' | 's' | 'w' => .ok (.set (letterClass ascii c), rest)
    | 'D' | 'S' | 'W' => .ok (.set (.complement (letterClass ascii c.toLower)), rest)
    | 'p' | 'P' => .error .unknownProperty
    | 'a' => .ok (.char (Char.ofNat 0x07), rest)
    | 'f' => .ok (.char (Char.ofNat 0x0c), rest)
    | 't' => .ok (.char '\t', rest)
    | 'n' => .ok (.char '\n', rest)
    | 'r' => .ok (.char '\r', rest)
    | 'v' => .ok (.char (Char.ofNat 0x0b), rest)
    | 'A' => .ok (.assertion .textStart, rest)
    | 'z' => .ok (.assertion .textEnd, rest)
    | 'b' => wordEdge f rest
    | 'B' => .ok (.assertion (.noWordEdge (!f.unicode)), rest)
    | '<' => .ok (.assertion (.wordStart (!f.unicode)), rest)
    | '>' => .ok (.assertion (.wordEnd (!f.unicode)), rest)
    | _ => if isEscapable c then .ok (.char c, rest) else .error .badEscape

end Regex

end CauseLists
