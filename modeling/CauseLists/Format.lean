-- Formats: checks on the content of a single value. A format never asks whether a value has to be
-- there; it judges what is.
import CauseLists.Calendar.Date
import CauseLists.Json.Basic
import CauseLists.Pattern.Basic
import CauseLists.Pattern.Expr

namespace CauseLists

/-- Why a value does not have a format. -/
inductive FormatFault
  | notText (found : Kind)
  /-- The value is not of the shape asked for. -/
  | malformed (value shape : String)
  /-- The shape is right, and there is no such day or time. -/
  | notReal (value : String)
  | wrongLength (expected actual : Nat)
  | notInitial (actual : Nat)
  | noMatch (value source : String)
deriving DecidableEq, Repr, Inhabited

def FormatFault.message : FormatFault → String
  | .notText found => "expected a string, found " ++ found.phrase
  | .malformed value shape => "\"" ++ value ++ "\" is not in the form " ++ shape
  | .notReal value => "\"" ++ value ++ "\" is not a real calendar date or time"
  | .wrongLength expected actual =>
    "must be exactly " ++ toString expected ++ " characters, found " ++ toString actual
  | .notInitial actual =>
    "must be empty or a single character, found " ++ toString actual ++ " characters"
  | .noMatch value source => "\"" ++ value ++ "\" does not match pattern " ++ source

/-- A check on the content of a value. -/
inductive Format
  /-- An instant of universal time in whole seconds, milliseconds or nanoseconds. -/
  | dateTime
  /-- A day. -/
  | date
  | fixedLength (length : Nat)
  /-- At most one character, as for a name that is kept back. -/
  | initialOrEmpty
  /-- A postcode of the United Kingdom. -/
  | postcode
  | pattern (pattern : Pattern)
deriving Inhabited

namespace Format

/-- The name of a format in rules and findings. -/
def label : Format → String
  | .dateTime => "date_time"
  | .date => "date"
  | .fixedLength _ => "fixed_length"
  | .initialOrEmpty => "initial_or_empty"
  | .postcode => "postcode"
  | .pattern _ => "pattern"

/-! ## Expressions -/

/-- Expressions one after another. -/
def inTurn : List Expr → Expr
  | [] => .empty
  | first :: more => more.foldl .seq first

/-- Any one of some expressions. -/
def anyOf : List Expr → Expr
  | [] => .set .none
  | first :: more => more.foldl .alt first

/-- A text as it stands. -/
def literally (text : String) : Expr := inTurn (text.toList.map (fun c => .set (.single c)))

/-- An expression so many times in a row. -/
def times (count : Nat) (e : Expr) : Expr := .repeated e count (some count)

/-- An expression or nothing. -/
def optional (e : Expr) : Expr := .repeated e 0 (some 1)

/-- A capital letter. -/
def capital : Expr := .set (.unions [.between 'A' 'Z'])

/-- A digit. -/
def digit : Expr := .set (.unions [.between '0' '9'])

/-- Expressions that make up a text from end to end. -/
def fromEndToEnd (parts : List Expr) : Expr :=
  inTurn (.assertion .textStart :: (parts ++ [.assertion .textEnd]))

/-! ## Days and times -/

/-- Four digits, two and two, with hyphens between them. -/
def dayParts : List Expr :=
  [times 4 digit, literally "-", times 2 digit, literally "-", times 2 digit]

/-- Three times two digits with colons between them. -/
def timeParts : List Expr :=
  [times 2 digit, literally ":", times 2 digit, literally ":", times 2 digit]

/-- Three or nine digits of a second, or none. -/
def fraction : Expr :=
  optional (inTurn [literally ".", anyOf [times 3 digit, times 9 digit]])

/-- A day. -/
def dateExpr : Expr := fromEndToEnd dayParts

/-- A day and a time with a Z at the end. -/
def dateTimeExpr : Expr :=
  fromEndToEnd (dayParts ++ literally "T" :: (timeParts ++ [fraction, literally "Z"]))

/-- The number in a group of so many digits, which is told by its place in the text. -/
def groupAt (place count : Nat) (cs : List Char) : Nat := Text.valueOf ((cs.drop place).take count)

/-- The day in the groups of an expression. -/
def dateIn (cs : List Char) : Date := ⟨groupAt 0 4 cs, groupAt 5 2 cs, groupAt 8 2 cs⟩

/-- An hour, a minute and a second. -/
structure TimeOfDay where
  hour : Nat
  minute : Nat
  second : Nat
deriving DecidableEq, Repr, Inhabited

/-- There is such a time in every day. -/
def TimeOfDay.exists? (t : TimeOfDay) : Bool := t.hour ≤ 23 && t.minute ≤ 59 && t.second ≤ 59

/-- The time in the groups of an expression, behind the day. -/
def timeIn (cs : List Char) : TimeOfDay := ⟨groupAt 11 2 cs, groupAt 14 2 cs, groupAt 17 2 cs⟩

/-- An instant of universal time. -/
def checkDateTime (value : String) : Except FormatFault Unit :=
  if dateTimeExpr.occursIn value then
    if (dateIn value.toList).exists? && (timeIn value.toList).exists? then .ok ()
    else .error (.notReal value)
  else .error (.malformed value "yyyy-MM-ddTHH:mm:ss[.SSS|.SSSSSSSSS]Z")

/-- A day. -/
def checkDate (value : String) : Except FormatFault Unit :=
  if dateExpr.occursIn value then
    if (dateIn value.toList).exists? then .ok () else .error (.notReal value)
  else .error (.malformed value "yyyy-MM-dd")

/-! ## Lengths -/

/-- So many characters. -/
def checkLength (length : Nat) (value : String) : Except FormatFault Unit :=
  if value.length = length then .ok () else .error (.wrongLength length value.length)

/-- One character or none. -/
def checkInitial (value : String) : Except FormatFault Unit :=
  if value.length ≤ 1 then .ok () else .error (.notInitial value.length)

/-! ## Postcodes -/

/-- One digit or two. -/
def oneOrTwoDigits : Expr := .repeated digit 1 (some 2)

/-- A capital letter other than C, I, K, M, O and V, which never end a postcode. -/
def inwardLetter : Expr := .set (.unions [
  .single 'A', .single 'B', .between 'D' 'H', .single 'J', .single 'L', .single 'N',
  .between 'P' 'U', .between 'W' 'Z'])

/-- The part of a postcode in front of its space. -/
def outward : Expr := anyOf [
  inTurn [capital, oneOrTwoDigits], inTurn [times 2 capital, oneOrTwoDigits],
  inTurn [capital, digit, capital], inTurn [times 2 capital, digit, capital]]

/-- A postcode, or the one that follows no rule. -/
def anyPostcode : Expr := anyOf [literally "GIR 0AA",
  inTurn [outward, literally " ", digit, times 2 inwardLetter]]

/-- A postcode from end to end. -/
def postcodeExpr : Expr := fromEndToEnd [anyPostcode]

/-- A postcode. -/
def checkPostcode (value : String) : Except FormatFault Unit :=
  if postcodeExpr.occursIn value then .ok ()
  else .error (.malformed value "a UK postcode such as SW1A 1AA")

/-! ## Any format -/

/-- Checks a text. -/
def checkText (format : Format) (value : String) : Except FormatFault Unit :=
  match format with
  | .dateTime => checkDateTime value
  | .date => checkDate value
  | .fixedLength length => checkLength length value
  | .initialOrEmpty => checkInitial value
  | .postcode => checkPostcode value
  | .pattern p => if p.accepts value then .ok () else .error (.noMatch value p.source)

/-- Checks a value; one that is no text never has a format. -/
def check (format : Format) : Json → Except FormatFault Unit
  | .string value => format.checkText value
  | json => .error (.notText json.kind)

end Format

end CauseLists
