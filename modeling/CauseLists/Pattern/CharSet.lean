-- Sets of characters, as the classes of a pattern build them: ranges, the classes of Unicode, and
-- what the operators on classes make of them. Membership is decided on the expression itself.
import CauseLists.Text.Blank
import CauseLists.Text.CaseTable
import CauseLists.Text.WordTable

namespace CauseLists

/-- An expression for a set of characters. -/
inductive CharSet
  /-- The code points from one to another; none if the first is the larger. -/
  | range (low high : Nat)
  | digits
  | blanks
  | wordChars
  | union (a b : CharSet)
  | inter (a b : CharSet)
  | diff (a b : CharSet)
  | symDiff (a b : CharSet)
  | complement (a : CharSet)
  /-- With every other case of its letters. -/
  | caseless (a : CharSet)
deriving DecidableEq, Repr, Inhabited

namespace CharSet

/-- A code point lies in one of the ranges. -/
def inRanges (ranges : List (Nat × Nat)) (c : Char) : Bool :=
  ranges.any (fun r => r.1 ≤ c.toNat && c.toNat ≤ r.2)

/-- A decimal digit of any script. -/
def isDecimalDigit (c : Char) : Bool := inRanges Text.decimalDigitRanges c

/-- A word character of any script. -/
def isWordChar (c : Char) : Bool := inRanges Text.wordRanges c

/-- Membership of a character. -/
def contains : CharSet → Char → Bool
  | .range low high, c => low ≤ c.toNat && c.toNat ≤ high
  | .digits, c => isDecimalDigit c
  | .blanks, c => Text.isBlank c
  | .wordChars, c => isWordChar c
  | .union a b, c => a.contains c || b.contains c
  | .inter a b, c => a.contains c && b.contains c
  | .diff a b, c => a.contains c && !b.contains c
  | .symDiff a b, c => a.contains c != b.contains c
  | .complement a, c => !a.contains c
  | .caseless a, c => a.contains c || (Text.otherCases c).any a.contains

/-- No character at all. -/
def none : CharSet := .range 1 0

/-- Every character. -/
def all : CharSet := .range 0 0x10ffff

/-- One character. -/
def single (c : Char) : CharSet := .range c.toNat c.toNat

/-- The characters from one to another. -/
def between (a b : Char) : CharSet := .range a.toNat b.toNat

/-- What some set of a row holds. -/
def unions (sets : List CharSet) : CharSet := sets.foldl .union none

end CharSet

end CauseLists
