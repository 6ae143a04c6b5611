-- Binary floating-point numbers of 64 bits, as exact data: a finite number is a natural
-- mantissa times a power of two. All arithmetic here is on natural numbers and rounds once,
-- to the nearest number and at a tie to the even mantissa.

namespace CauseLists.Decimal

/-- A finite number: `mantissa * 2 ^ exponent`, below zero if `negative`. The mantissa has 53
bits, or fewer at the least exponent, so each number has one form; zero has two signs. -/
structure Binary64 where
  negative : Bool
  mantissa : Nat
  exponent : Int
deriving DecidableEq, Repr, Inhabited

/-- The least exponent: below it the mantissa loses bits. -/
def leastExponent : Int := -1074

/-- The largest exponent of a finite number. -/
def greatestExponent : Int := 971

/-- The quotient of two numbers, rounded to the nearest number, at a tie to the even one. -/
def roundedQuotient (num den : Nat) : Nat :=
  let q := num / den
  let r := num % den
  if den < 2 * r || (2 * r == den && q % 2 == 1) then q + 1 else q

/-- The quotient `num / (den * 2 ^ e)` as one of natural numbers. -/
def scaledDown (num den : Nat) (e : Int) : Nat × Nat :=
  match e with
  | .ofNat k => (num, den * Nat.pow 2 k)
  | .negSucc k => (num * Nat.pow 2 (k + 1), den)

/-- The exponent that leaves 53 bits of `num / den` in front of the point, but never less than
the least one. -/
def exponentFor (num den : Nat) : Int :=
  let guess : Int := (Nat.log2 num : Int) - Nat.log2 den - 52
  let (n, d) := scaledDown num den guess
  let exact := if n / d < Nat.pow 2 52 then guess - 1 else guess
  max exact leastExponent

namespace Binary64

/-- Zero with a sign. -/
def zero (negative : Bool) : Binary64 := ⟨negative, 0, leastExponent⟩

/-- The number nearest to `num / den`; `none` if it is too large to be finite. -/
def nearest? (negative : Bool) (num den : Nat) : Option Binary64 :=
  if num == 0 then some (zero negative)
  else
    let e := exponentFor num den
    let (n, d) := scaledDown num den e
    let m := roundedQuotient n d
    let (m, e) := if m == Nat.pow 2 53 then (Nat.pow 2 52, e + 1) else (m, e)
    if greatestExponent < e then none else some ⟨negative, m, e⟩

def isZero (x : Binary64) : Bool := x.mantissa == 0

/-- The size of a number as a quotient of natural numbers. -/
def magnitude (x : Binary64) : Nat × Nat :=
  match x.exponent with
  | .ofNat k => (x.mantissa * Nat.pow 2 k, 1)
  | .negSucc k => (x.mantissa, Nat.pow 2 (k + 1))

/-- The numerator of a number over the denominator of its size. -/
def signedNumerator (x : Binary64) : Int :=
  if x.negative then -(x.magnitude.1 : Int) else x.magnitude.1

/-- The same number; the two zeros are the same number. -/
def sameValue (x y : Binary64) : Bool := x == y || (x.isZero && y.isZero)

/-- A power of ten as a number, for an exponent of at most 308. -/
def powerOfTen (k : Nat) : Nat × Nat :=
  match nearest? false (Nat.pow 10 k) 1 with
  | some p => p.magnitude
  | none => (Nat.pow 10 k, 1)

/-- The product of a number and a power of ten, each first rounded to a number. -/
def timesPowerOfTen? (x : Binary64) (k : Nat) : Option Binary64 :=
  let (n, d) := x.magnitude
  let (p, q) := powerOfTen k
  nearest? x.negative (n * p) (d * q)

/-- The quotient of a number by a power of ten, each first rounded to a number. -/
def overPowerOfTen (x : Binary64) (k : Nat) : Binary64 :=
  let (n, d) := x.magnitude
  let (p, q) := powerOfTen k
  (nearest? x.negative (n * q) (d * p)).getD (zero x.negative)

/-- The largest power of ten that is a number. -/
def greatestPowerOfTen : Nat := 308

/-- A number divided by `10 ^ k` in steps of at most the largest power of ten, rounded at each
step. Each full step makes the number smaller by that power, so after three it is zero. -/
def dividedByTens (x : Binary64) (k : Nat) : Binary64 :=
  if k ≤ greatestPowerOfTen then x.overPowerOfTen k
  else
    let x := x.overPowerOfTen greatestPowerOfTen
    let k := k - greatestPowerOfTen
    if x.isZero then x
    else if k ≤ greatestPowerOfTen then x.overPowerOfTen k
    else
      let x := x.overPowerOfTen greatestPowerOfTen
      let k := k - greatestPowerOfTen
      if x.isZero then x
      else if k ≤ greatestPowerOfTen then x.overPowerOfTen k
      else zero x.negative

/-- The number `significand * 10 ^ exponent` by one rounding of the significand and one of each
product or quotient with a power of ten; `none` if it leaves the finite numbers. A zero stays zero
for any exponent. -/
def ofDecimalStepwise? (significand : Nat) (exponent : Int) : Option Binary64 := do
  let x ← nearest? false significand 1
  match exponent with
  | .ofNat k =>
    if k ≤ greatestPowerOfTen then x.timesPowerOfTen? k
    else if x.isZero then some x else none
  | .negSucc k => some (x.dividedByTens (k + 1))

/-- The number `significand * 10 ^ exponent`, rounded once; `none` if it is too large to be
finite. -/
def ofDecimal? (negative : Bool) (significand : Nat) (exponent : Int) : Option Binary64 :=
  match exponent with
  | .ofNat k => nearest? negative (significand * Nat.pow 10 k) 1
  | .negSucc k => nearest? negative significand (Nat.pow 10 (k + 1))

/-- A whole number that is a number without a fraction. -/
def toWhole? (x : Binary64) : Option Int :=
  let (n, d) := x.magnitude
  if n % d == 0 then some (if x.negative then -((n / d : Nat) : Int) else ((n / d : Nat) : Int))
  else none

end Binary64

end CauseLists.Decimal
