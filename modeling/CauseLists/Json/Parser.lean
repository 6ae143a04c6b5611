-- Reading a document from bytes. A reader takes the bytes that are left and gives what it read
-- with the bytes after it. A fault carries the number of bytes behind the place it is reported
-- at; the line and the column are counted from that number at the very end.
import CauseLists.Json.Basic
import CauseLists.Text.Utf8

namespace CauseLists

/-- Why bytes are not a document. -/
inductive JsonFault
  | endOfValue | endOfList | endOfObject | endOfString
  | expectedValue | expectedWord | expectedColon | expectedCommaOrBracket | expectedCommaOrBrace
  | keyNotString | trailingComma | trailingText
  | badNumber | numberTooLarge
  | badEscape | endOfEscape | loneSurrogate | controlCharacter | notText
  | tooDeep
deriving DecidableEq, Repr, Inhabited

def JsonFault.message : JsonFault → String
  | .endOfValue => "EOF while parsing a value"
  | .endOfList => "EOF while parsing a list"
  | .endOfObject => "EOF while parsing an object"
  | .endOfString => "EOF while parsing a string"
  | .expectedValue => "expected value"
  | .expectedWord => "expected ident"
  | .expectedColon => "expected `:`"
  | .expectedCommaOrBracket => "expected `,` or `]`"
  | .expectedCommaOrBrace => "expected `,` or `\x7d`"
  | .keyNotString => "key must be a string"
  | .trailingComma => "trailing comma"
  | .trailingText => "trailing characters"
  | .badNumber => "invalid number"
  | .numberTooLarge => "number out of range"
  | .badEscape => "invalid escape"
  | .endOfEscape => "unexpected end of hex escape"
  | .loneSurrogate => "lone leading surrogate in hex escape"
  | .controlCharacter => "control character (\\u0000-\\u001F) found while parsing a string"
  | .notText => "invalid unicode code point"
  | .tooDeep => "recursion limit exceeded"

/-- A fault and where it is reported: the line from 1, and the bytes of that line up to and
with the byte at fault. -/
structure JsonError where
  fault : JsonFault
  line : Nat
  column : Nat
deriving DecidableEq, Repr, Inhabited

def JsonError.message (e : JsonError) : String :=
  e.fault.message ++ " at line " ++ toString e.line ++ " column " ++ toString e.column

namespace Json.Reader

/-- A reader's answer: what it read and the bytes left, or a fault and how many bytes lie behind
the place it is reported at. -/
abbrev Step (α : Type) := Except (JsonFault × Nat) (α × Bytes)

/-- A fault at the byte in front of `rest`. -/
def failAt {α : Type} (fault : JsonFault) (rest : Bytes) : Step α := .error (fault, rest.length)

/-- A fault at the first byte of what is left, or at the end. -/
def failOn {α : Type} (fault : JsonFault) (rest : Bytes) : Step α :=
  .error (fault, rest.length - 1)

/-- White space between tokens: space, tab, line feed and carriage return. -/
def isGap (b : UInt8) : Bool := b == 0x20 || b == 0x09 || b == 0x0a || b == 0x0d

def skipGaps (bytes : Bytes) : Bytes := bytes.dropWhile isGap

def isDigitByte (b : UInt8) : Bool := 0x30 ≤ b && b ≤ 0x39

def digitOf (b : UInt8) : Nat := b.toNat - 0x30

/-! ## Words -/

/-- The rest of a word whose first letter was seen. -/
def word {α : Type} (value : α) : (expected : Bytes) → Bytes → Step α
  | [], rest => .ok (value, rest)
  | _ :: _, [] => failAt .endOfValue []
  | e :: expected, b :: rest =>
    if b == e then word value expected rest else failAt .expectedWord rest

/-! ## Numbers -/

/-- Digits joined to a significand while it stays within 64 bits: the new significand, and the
digits from the first one that would overflow it. -/
def gather (significand : Nat) : (digits : Bytes) → Nat × Bytes
  | [] => (significand, [])
  | d :: ds =>
    let next := significand * 10 + digitOf d
    if next ≤ Text.maxWord64 then gather next ds else (significand, d :: ds)

/-- The floating-point number of a sign, a significand and a power of ten. -/
def floatOf (negative : Bool) (significand : Nat) (power : Int) (rest : Bytes) : Step Number :=
  match Decimal.Binary64.ofDecimalStepwise? significand power with
  | some x => .ok (.float { x with negative := negative }, rest)
  | none => failAt .numberTooLarge rest

/-- The largest exponent that is read as a number; a longer one means zero or too large. -/
def maxExponent : Nat := 2147483647

/-- The digits of an exponent: its value, or the bytes behind the digit that made it too large. -/
def exponentDigits (value : Nat) : (digits : Bytes) → Except Bytes Nat
  | [] => .ok value
  | d :: ds =>
    let next := value * 10 + digitOf d
    if next ≤ maxExponent then exponentDigits next ds else .error ds

/-- What follows the mark of an exponent. -/
def exponent (negative : Bool) (significand : Nat) (power : Int) (bytes : Bytes) : Step Number :=
  let (down, bytes) := match bytes with
    | 0x2b :: rest => (false, rest)
    | 0x2d :: rest => (true, rest)
    | _ => (false, bytes)
  match bytes with
  | [] => failAt .endOfValue []
  | d :: rest =>
    if isDigitByte d then
      let digits := rest.takeWhile isDigitByte
      let rest := rest.dropWhile isDigitByte
      match exponentDigits (digitOf d) digits with
      | .ok e => floatOf negative significand (if down then power - e else power + e) rest
      | .error behind =>
        if significand != 0 && !down then failAt .numberTooLarge (behind ++ rest)
        else .ok (.float (Decimal.Binary64.zero negative), rest)
    else failAt .badNumber rest

/-- An exponent, if its mark comes next. -/
def maybeExponent (negative : Bool) (significand : Nat) (power : Int) (bytes : Bytes) :
    Step Number :=
  match bytes with
  | b :: rest =>
    if b == 0x65 || b == 0x45 then exponent negative significand power rest
    else floatOf negative significand power bytes
  | [] => floatOf negative significand power bytes

/-- What follows the point of a fraction. Digits that no longer fit the significand are passed
over. -/
def fraction (negative : Bool) (significand : Nat) (power : Int) (bytes : Bytes) : Step Number :=
  let digits := bytes.takeWhile isDigitByte
  let rest := bytes.dropWhile isDigitByte
  if digits.isEmpty then
    match rest with
    | [] => failOn .endOfValue []
    | _ => failOn .badNumber rest
  else
    let (joined, excess) := gather significand digits
    maybeExponent negative joined (power - (digits.length - excess.length : Nat)) rest

/-- A whole number whose digits all fitted, or what follows them. -/
def afterDigits (negative : Bool) (significand : Nat) (bytes : Bytes) : Step Number :=
  let whole : Step Number :=
    if !negative then .ok (.whole significand, bytes)
    else if significand == 0 || Nat.pow 2 63 < significand then
      floatOf true significand 0 bytes
    else .ok (.whole (-(significand : Int)), bytes)
  match bytes with
  | b :: rest =>
    if b == 0x2e then fraction negative significand 0 rest
    else if b == 0x65 || b == 0x45 then exponent negative significand 0 rest
    else whole
  | [] => whole

/-- What follows digits that went over 64 bits by `excess` digits. -/
def afterLongDigits (negative : Bool) (significand excess : Nat) (bytes : Bytes) : Step Number :=
  match bytes with
  | b :: rest =>
    if b == 0x2e then fraction negative significand excess rest
    else maybeExponent negative significand excess bytes
  | [] => maybeExponent negative significand excess bytes

/-- A number after its sign: one zero, or digits that start with another digit. -/
def number (negative : Bool) (bytes : Bytes) : Step Number :=
  match bytes with
  | [] => failAt .endOfValue []
  | d :: rest =>
    if d == 0x30 then
      match rest with
      | e :: _ => if isDigitByte e then failOn .badNumber rest else afterDigits negative 0 rest
      | [] => afterDigits negative 0 rest
    else if isDigitByte d then
      let digits := rest.takeWhile isDigitByte
      let behind := rest.dropWhile isDigitByte
      let (significand, excess) := gather (digitOf d) digits
      if excess.isEmpty then afterDigits negative significand behind
      else afterLongDigits negative significand excess.length behind
    else failAt .badNumber rest

/-! ## Strings -/

/-- The value of a byte as a hexadecimal digit. -/
def hexByte (b : UInt8) : Option Nat := Text.hexValue (Char.ofNat b.toNat)

/-- Four hexadecimal digits. -/
def hexEscape : Bytes → Step Nat
  | a :: b :: c :: d :: rest =>
    match hexByte a, hexByte b, hexByte c, hexByte d with
    | some a, some b, some c, some d => .ok (((a * 16 + b) * 16 + c) * 16 + d, rest)
    | _, _, _, _ => failAt .badEscape rest
  | _ => failAt .endOfString []

/-- The second half of a pair of escapes for one character past the first plane. -/
def secondHalf (high : Nat) (bytes : Bytes) : Step Char :=
  match bytes with
  | [] => failAt .endOfString []
  | b :: rest =>
    if b == 0x5c then
      match rest with
      | [] => failAt .endOfString []
      | u :: rest =>
        if u == 0x75 then
          match hexEscape rest with
          | .ok (low, rest) =>
            if 0xdc00 ≤ low && low ≤ 0xdfff then
              .ok (Char.ofNat ((high - 0xd800) * 1024 + (low - 0xdc00) + 0x10000), rest)
            else failAt .loneSurrogate rest
          | .error e => .error e
        else failAt .endOfEscape rest
    else failAt .endOfEscape rest

/-- A character written by its code. -/
def codeEscape (bytes : Bytes) : Step Char :=
  match hexEscape bytes with
  | .error e => .error e
  | .ok (n, rest) =>
    if 0xdc00 ≤ n && n ≤ 0xdfff then failAt .loneSurrogate rest
    else if 0xd800 ≤ n && n ≤ 0xdbff then secondHalf n rest
    else .ok (Char.ofNat n, rest)

/-- What follows a backslash. -/
def escaped (bytes : Bytes) : Step Char :=
  match bytes with
  | [] => failAt .endOfString []
  | b :: rest =>
    match Char.ofNat b.toNat with
    | '"' => .ok ('"', rest)
    | '\\' => .ok ('\\', rest)
    | '/' => .ok ('/', rest)
    | 'b' => .ok (Char.ofNat 0x08, rest)
    | 'f' => .ok (Char.ofNat 0x0c, rest)
    | 'n' => .ok ('\n', rest)
    | 'r' => .ok ('\r', rest)
    | 't' => .ok ('\t', rest)
    | 'u' => codeEscape rest
    | _ => failAt .badEscape rest

/-- The characters of a string after its opening quote. A byte that is no text is reported only
once the string is closed; `bad` holds the bytes behind the first one. Each round takes a byte or
more, so one round more than there are bytes is enough. -/
def characters : (rounds : Nat) → (bad : Option Nat) → (done : List Char) → Bytes → Step String
  | 0, _, _, _ => failAt .endOfString []
  | _, _, _, [] => failAt .endOfString []
  | rounds + 1, bad, done, b :: rest =>
    if b == 0x22 then
      match bad with
      | some behind => .error (.notText, behind)
      | none => .ok (String.ofList done.reverse, rest)
    else if b == 0x5c then
      match escaped rest with
      | .ok (c, rest) => characters rounds bad (c :: done) rest
      | .error e => .error e
    else if b < 0x20 then failAt .controlCharacter rest
    else
      match Text.firstChar? (b :: rest) with
      | some (c, rest) => characters rounds bad (c :: done) rest
      | none => characters rounds (bad.or (some rest.length)) done rest

/-- A string after its opening quote. -/
def string (rounds : Nat) (bytes : Bytes) : Step String := characters rounds none [] bytes

/-! ## Values -/

mutual

/-- A value, after any gaps. `levels` counts the brackets that may still be opened. There are always
more than twice as many rounds as bytes: of two rounds in a row at least one takes a byte. -/
def value : (rounds levels : Nat) → Bytes → Step Json
  | 0, _, bytes => failOn .endOfValue bytes
  | rounds + 1, levels, bytes =>
    match skipGaps bytes with
    | [] => failOn .endOfValue []
    | b :: rest =>
      match Char.ofNat b.toNat with
      | 'n' => word .null [0x75, 0x6c, 0x6c] rest
      | 't' => word (.bool true) [0x72, 0x75, 0x65] rest
      | 'f' => word (.bool false) [0x61, 0x6c, 0x73, 0x65] rest
      | '-' => (number true rest).map (fun (n, rest) => (.number n, rest))
      | '"' => (string rounds rest).map (fun (s, rest) => (.string s, rest))
      | '[' =>
        match levels with
        | 0 => failOn .tooDeep (b :: rest)
        | levels + 1 => items rounds levels true [] rest
      | '\x7b' =>
        match levels with
        | 0 => failOn .tooDeep (b :: rest)
        | levels + 1 => members rounds levels true [] rest
      | _ =>
        if isDigitByte b then (number false (b :: rest)).map (fun (n, rest) => (.number n, rest))
        else failOn .expectedValue (b :: rest)

/-- The elements of an array after its bracket or after an element. -/
def items : (rounds levels : Nat) → (first : Bool) → (done : List Json) → Bytes → Step Json
  | 0, _, _, _, bytes => failOn .endOfList bytes
  | rounds + 1, levels, first, done, bytes =>
    match skipGaps bytes with
    | [] => failOn .endOfList []
    | b :: rest =>
      if b == 0x5d then .ok (.array done.reverse, rest)
      else if first then
        match value rounds levels (b :: rest) with
        | .ok (x, rest) => items rounds levels false (x :: done) rest
        | .error e => .error e
      else if b == 0x2c then
        match skipGaps rest with
        | [] => failOn .endOfValue []
        | c :: rest =>
          if c == 0x5d then failOn .trailingComma (c :: rest)
          else
            match value rounds levels (c :: rest) with
            | .ok (x, rest) => items rounds levels false (x :: done) rest
            | .error e => .error e
      else failOn .expectedCommaOrBracket (b :: rest)

/-- The members of an object after its brace or after a member, in the order they are written. -/
def members : (rounds levels : Nat) → (first : Bool) → (done : List (String × Json)) → Bytes →
    Step Json
  | 0, _, _, _, bytes => failOn .endOfObject bytes
  | rounds + 1, levels, first, done, bytes =>
    match skipGaps bytes with
    | [] => failOn .endOfObject []
    | b :: rest =>
      if b == 0x7d then .ok (.object done.reverse, rest)
      else if first then
        if b == 0x22 then member rounds levels done rest
        else failOn .keyNotString (b :: rest)
      else if b == 0x2c then
        match skipGaps rest with
        | [] => failOn .endOfValue []
        | c :: rest =>
          if c == 0x22 then member rounds levels done rest
          else if c == 0x7d then failOn .trailingComma (c :: rest)
          else failOn .keyNotString (c :: rest)
      else failOn .expectedCommaOrBrace (b :: rest)

/-- One member after the quote that opens its key, and the members after it. -/
def member : (rounds levels : Nat) → (done : List (String × Json)) → Bytes → Step Json
  | 0, _, _, bytes => failOn .endOfObject bytes
  | rounds + 1, levels, done, bytes =>
    match string rounds bytes with
    | .error e => .error e
    | .ok (key, rest) =>
      match skipGaps rest with
      | [] => failOn .endOfObject []
      | c :: rest =>
        if c == 0x3a then
          match value rounds levels rest with
          | .ok (x, rest) => members rounds levels false ((key, x) :: done) rest
          | .error e => .error e
        else failOn .expectedColon (c :: rest)

end

/-- Brackets may be nested this deep. -/
def maxLevels : Nat := 127

/-- A whole document: a value and nothing but gaps after it. -/
def document (bytes : Bytes) : Step Json :=
  match value (2 * bytes.length + 3) maxLevels bytes with
  | .error e => .error e
  | .ok (x, rest) =>
    match skipGaps rest with
    | [] => .ok (x, [])
    | b :: rest => failOn .trailingText (b :: rest)

/-- The line and the column at the end of a row of bytes. -/
def position (bytes : Bytes) : Nat × Nat :=
  bytes.foldl (fun (p : Nat × Nat) b => if b == 0x0a then (p.1 + 1, 0) else (p.1, p.2 + 1)) (1, 0)

end Json.Reader

namespace Json

/-- Reads a document and keeps the members of its objects as they are written, repeated keys and
all. -/
def parseWritten (bytes : Bytes) : Except JsonError Json :=
  match Reader.document bytes with
  | .ok (x, _) => .ok x
  | .error (fault, behind) =>
    let (line, column) := Reader.position (bytes.take (bytes.length - behind))
    .error ⟨fault, line, column⟩

/-- Reads a document. Members stand in the order of their keys, and of members with one key the
last one counts. -/
def parse (bytes : Bytes) : Except JsonError Json := (parseWritten bytes).map canonical

end Json

end CauseLists
