-- The shortest decimal that reads back as a given number: for 1, 2, … 17 digits the two grid
-- points around the value are tried, and the first grid with a point that rounds to the value
-- wins. Of two such points the nearer is taken, and at a tie the one with the even last digit.
import CauseLists.Decimal.Binary64

namespace CauseLists.Decimal

/-- The digits of a decimal and the power of ten of the last one. -/
structure Digits where
  digits : Nat
  exponent : Int
deriving DecidableEq, Repr

/-- The points that round to a number, in quarters of its last bit: from `low` to `high` around
`value`, ends included if `closed`. -/
structure Interval where
  low : Nat
  value : Nat
  high : Nat
  /-- The power of two of one quarter. -/
  scale : Int
  closed : Bool

/-- Below the first number of a binade the gap is half as wide. -/
def Interval.around (x : Binary64) : Interval where
  low := if x.mantissa == Nat.pow 2 52 && leastExponent < x.exponent then 4 * x.mantissa - 1
    else 4 * x.mantissa - 2
  value := 4 * x.mantissa
  high := 4 * x.mantissa + 2
  scale := x.exponent - 2
  closed := x.mantissa % 2 == 0

/-- Two natural numbers that compare like `a * 10 ^ e` and `b * 2 ^ s`. -/
def crossed (a : Nat) (e : Int) (b : Nat) (s : Int) : Nat × Nat :=
  (a * Nat.pow 10 e.toNat * Nat.pow 2 (-s).toNat,
    b * Nat.pow 2 s.toNat * Nat.pow 10 (-e).toNat)

/-- The decimal `a * 10 ^ e` rounds to the number. -/
def Interval.holds (i : Interval) (a : Nat) (e : Int) : Bool :=
  let (x, lo) := crossed a e i.low i.scale
  let (y, hi) := crossed a e i.high i.scale
  if i.closed then lo ≤ x && y ≤ hi else lo < x && y < hi

/-- How many digits stand before the point in `num / den`, less the zeros that stand right
after it if there are none: the least `k` with `num / den < 10 ^ k`. -/
def magnitudeOfTen (num den : Nat) : Int :=
  let guess : Int := ((Nat.log2 num : Int) - Nat.log2 den) * 30103 / 100000
  let below (k : Int) : Bool := num * Nat.pow 10 (-k).toNat < den * Nat.pow 10 k.toNat
  let start := guess - 1
  ((List.range 5).map (fun (i : Nat) => start + (i : Int))).find? below |>.getD (start + 5)

/-- The best point of the grid of `n` digits, if one of the two neighbours of the value lies in
its interval. -/
def Interval.onGrid (i : Interval) (num den : Nat) (k : Int) (n : Nat) : Option Digits :=
  let e := k - (n : Int)
  let p := num * Nat.pow 10 (-e).toNat
  let q := den * Nat.pow 10 e.toNat
  let down := p / q
  let up := down + 1
  match i.holds down e, i.holds up e with
  | true, true =>
    let twice := 2 * (p % q)
    some ⟨if twice < q || (twice == q && down % 2 == 0) then down else up, e⟩
  | true, false => some ⟨down, e⟩
  | false, true => some ⟨up, e⟩
  | false, false => none

/-- The digits without the zeros at their end, each zero moved into the exponent. -/
def Digits.trimmed : (rounds : Nat) → Digits → Digits
  | 0, d => d
  | rounds + 1, d =>
    if d.digits != 0 && d.digits % 10 == 0 then
      Digits.trimmed rounds ⟨d.digits / 10, d.exponent + 1⟩
    else d

/-- The shortest digits of a number other than zero. -/
def shortest (x : Binary64) : Digits :=
  let (num, den) := x.magnitude
  let i := Interval.around x
  let k := magnitudeOfTen num den
  ((List.range 17).findSome? (fun n => i.onGrid num den k (n + 1))).getD ⟨num / den, 0⟩
    |>.trimmed 20

end CauseLists.Decimal
