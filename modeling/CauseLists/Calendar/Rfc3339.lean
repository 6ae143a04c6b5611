-- Reading an instant from text as RFC 3339 writes it. A reader takes the bytes that are left and
-- gives what it read with the bytes after it; faults are reported in the order of the text, but
-- the time of day is judged after its fraction and the offset after everything else.
import CauseLists.Calendar.Instant
import CauseLists.Text.Utf8

namespace CauseLists

/-- Why a text writes no instant. -/
inductive InstantFault
  | endOfText | strayCharacter | outOfRange | trailingText
  /-- A text that has to end in a capital Z and does not. -/
  | notUniversal
deriving DecidableEq, Repr, Inhabited

def InstantFault.message : InstantFault → String
  | .endOfText => "premature end of input"
  | .strayCharacter => "input contains invalid characters"
  | .outOfRange => "input is out of range"
  | .trailingText => "trailing input"
  | .notUniversal => "must use Z suffix (UTC only)"

namespace Instant.Reader

def isDigitByte (b : UInt8) : Bool := 0x30 ≤ b && b ≤ 0x39

/-- A fixed number of digits. -/
def digits : (count : Nat) → (value : Nat) → Bytes → Except InstantFault (Nat × Bytes)
  | 0, value, bytes => .ok (value, bytes)
  | _ + 1, _, [] => .error .endOfText
  | count + 1, value, b :: rest =>
    if isDigitByte b then digits count (value * 10 + (b.toNat - 0x30)) rest
    else .error .strayCharacter

/-- One byte out of a row of allowed ones. -/
def mark (allowed : Bytes) : Bytes → Except InstantFault (Unit × Bytes)
  | [] => .error .endOfText
  | b :: rest => if allowed.contains b then .ok ((), rest) else .error .strayCharacter

/-- Year, month and day. -/
def date (bytes : Bytes) : Except InstantFault (Date × Bytes) := do
  let (year, bytes) ← digits 4 0 bytes
  let (_, bytes) ← mark [0x2d] bytes
  let (month, bytes) ← digits 2 0 bytes
  let (_, bytes) ← mark [0x2d] bytes
  let (day, bytes) ← digits 2 0 bytes
  let date : Date := ⟨year, month, day⟩
  if date.exists? then .ok (date, bytes) else .error .outOfRange

/-- A fraction of a second, which is passed over; its point needs a digit after it. -/
def fraction : Bytes → Except InstantFault (Unit × Bytes)
  | 0x2e :: rest =>
    match rest with
    | [] => .error .endOfText
    | b :: _ =>
      if isDigitByte b then .ok ((), rest.dropWhile isDigitByte) else .error .strayCharacter
  | bytes => .ok ((), bytes)

/-- Hour, minute, second and fraction: the seconds since midnight. A second 60 is a leap second
and counts as the one before it. -/
def timeOfDay (bytes : Bytes) : Except InstantFault (Nat × Bytes) := do
  let (hour, bytes) ← digits 2 0 bytes
  let (_, bytes) ← mark [0x3a] bytes
  let (minute, bytes) ← digits 2 0 bytes
  let (_, bytes) ← mark [0x3a] bytes
  let (second, bytes) ← digits 2 0 bytes
  let (_, bytes) ← fraction bytes
  let second := if second == 60 then 59 else second
  if hour ≤ 23 && minute ≤ 59 && second ≤ 59 then
    .ok (hour * 3600 + minute * 60 + second, bytes)
  else .error .outOfRange

/-- The sign of an offset: a plus, a hyphen or the minus sign U+2212. -/
def offsetSign : Bytes → Except InstantFault (Bool × Bytes)
  | [] => .error .endOfText
  | 0x2b :: rest => .ok (false, rest)
  | 0x2d :: rest => .ok (true, rest)
  | 0xe2 :: 0x88 :: 0x92 :: rest => .ok (true, rest)
  | _ :: _ => .error .strayCharacter

/-- Two bytes, before they are judged. -/
def pair : Bytes → Except InstantFault ((UInt8 × UInt8) × Bytes)
  | a :: b :: rest => .ok ((a, b), rest)
  | _ => .error .endOfText

/-- Two digits. -/
def twoDigits (bytes : Bytes) : Except InstantFault (Nat × Bytes) := do
  let ((a, b), bytes) ← pair bytes
  if isDigitByte a && isDigitByte b then
    .ok ((a.toNat - 0x30) * 10 + (b.toNat - 0x30), bytes)
  else .error .strayCharacter

/-- The offset from universal time in seconds: `Z`, or a sign with hours and minutes. -/
def offset : Bytes → Except InstantFault (Int × Bytes)
  | [] => .error .endOfText
  | b :: rest => do
    if b == 0x5a || b == 0x7a then return (0, rest)
    let (negative, bytes) ← offsetSign (b :: rest)
    let (hours, bytes) ← twoDigits bytes
    let (_, bytes) ← mark [0x3a] bytes
    let (minutes, bytes) ← twoDigits bytes
    if 60 ≤ minutes then .error .outOfRange
    else
      let size : Int := hours * 3600 + minutes * 60
      .ok (if negative then -size else size, bytes)

/-- The fewest bytes that hold a day and a time. -/
def leastLength : Nat := 19

/-- A whole text. -/
def instant (bytes : Bytes) : Except InstantFault Instant := do
  if bytes.length < leastLength then .error .endOfText
  let (date, bytes) ← date bytes
  let (_, bytes) ← mark [0x54, 0x74, 0x20] bytes
  let (second, bytes) ← timeOfDay bytes
  let (offset, bytes) ← offset bytes
  if !bytes.isEmpty then .error .trailingText
  if secondsPerDay ≤ offset.natAbs then .error .outOfRange
  match Instant.ofSeconds? (date.dayNumber * secondsPerDay + second - offset) with
  | some t => .ok t
  | none => .error .outOfRange

end Instant.Reader

/-- A text that should have been an instant. -/
structure InstantError where
  value : String
  fault : InstantFault
deriving DecidableEq, Repr, Inhabited

def InstantError.message (e : InstantError) : String :=
  "invalid timestamp: \"" ++ e.value ++ "\" (" ++ e.fault.message ++ ")"

namespace Instant

/-- The instant that a text writes, with any offset. -/
def parse (text : String) : Except InstantError Instant :=
  match Reader.instant (Text.encode text) with
  | .ok t => .ok t
  | .error fault => .error ⟨text, fault⟩

/-- The instant that a text writes in universal time, marked by a capital Z at its end. -/
def parseUniversal (text : String) : Except InstantError Instant :=
  if text.toList.getLast? == some 'Z' then parse text else .error ⟨text, .notUniversal⟩

end Instant

end CauseLists
