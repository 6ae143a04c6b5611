-- Decimal numerals: ASCII digits with an optional sign, read against a bound. An index of a path,
-- a setting and a count are all read by the one reader, so they agree on what a numeral is.

namespace CauseLists.Text

/-- An ASCII digit. -/
def isDigit (c : Char) : Bool := '0' ≤ c && c ≤ '9'

/-- The value of an ASCII digit. -/
def digitValue (c : Char) : Nat := c.toNat - '0'.toNat

/-- The number that a row of digits writes, most significant first. -/
def valueOf (digits : List Char) : Nat := digits.foldl (fun n c => n * 10 + digitValue c) 0

/-- At least one digit and nothing else. -/
def readDigits (cs : List Char) : Option Nat :=
  if cs ≠ [] ∧ cs.all isDigit then some (valueOf cs) else none

/-- A natural number of at most `limit`: digits, after at most one plus sign. -/
def readNatural (limit : Nat) (cs : List Char) : Option Nat :=
  let digits := match cs with
    | '+' :: rest => rest
    | _ => cs
  (readDigits digits).filter (· ≤ limit)

/-- The largest number of 64 bits. -/
def maxWord64 : Nat := 18446744073709551615

/-- The largest number of 32 bits. -/
def maxWord32 : Nat := 4294967295

/-- The least signed number of 64 bits. -/
def minSigned64 : Int := -9223372036854775808

/-- The largest signed number of 64 bits. -/
def maxSigned64 : Int := 9223372036854775807

/-- A number in decimal, with zeros in front up to `width` digits. -/
def padded (width n : Nat) : String :=
  let digits := toString n
  String.ofList (List.replicate (width - digits.length) '0') ++ digits

/-- One digit of a hexadecimal numeral, in lower case. -/
def hexDigit (n : Nat) : Char :=
  if n < 10 then Char.ofNat ('0'.toNat + n) else Char.ofNat ('a'.toNat + (n - 10))

/-- The value of a hexadecimal digit of either case. -/
def hexValue (c : Char) : Option Nat :=
  if isDigit c then some (digitValue c)
  else if 'a' ≤ c && c ≤ 'f' then some (c.toNat - 'a'.toNat + 10)
  else if 'A' ≤ c && c ≤ 'F' then some (c.toNat - 'A'.toNat + 10)
  else none

/-- The low `width` hexadecimal digits of a number, most significant first. -/
def hexDigits : (width : Nat) → (n : Nat) → List Char
  | 0, _ => []
  | width + 1, n => hexDigits width (n / 16) ++ [hexDigit (n % 16)]

/-- The number that a row of digits writes in a base, if every character is a digit of that
base and there is at least one. -/
def readBase (base : Nat) (cs : List Char) : Option Nat :=
  if cs.isEmpty then none
  else cs.foldl (fun acc c => do
    let n ← acc
    let d ← hexValue c
    if d < base then some (n * base + d) else none) (some 0)

end CauseLists.Text
