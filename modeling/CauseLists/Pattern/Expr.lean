-- Pattern expressions and what they match. A match runs from one position of a text to another;
-- the matcher follows all positions at once, so it needs no backtracking and always ends.
import CauseLists.Pattern.CharSet

namespace CauseLists

/-- A place in a text: how many characters lie before it, the last of them, and what follows. -/
structure Position where
  index : Nat
  before : Option Char
  rest : List Char
deriving Repr, Inhabited

namespace Position

/-- Places of one text are told apart by how many characters lie before them. -/
instance : BEq Position := ⟨fun p q => p.index == q.index⟩

/-- The first place of a text. -/
def first (text : String) : Position := ⟨0, none, text.toList⟩

/-- Every place of a text from a given one to its end. -/
def onward (index : Nat) (before : Option Char) : List Char → List Position
  | [] => [⟨index, before, []⟩]
  | c :: rest => ⟨index, before, c :: rest⟩ :: onward (index + 1) (some c) rest

end Position

/-- A test on a place that takes no character. The tests on words take the letters of every script,
or of ASCII alone. -/
inductive Assertion
  | textStart | textEnd
  | lineStart | lineEnd
  /-- Lines that may also end in a carriage return. -/
  | crLineStart | crLineEnd
  | wordEdge (ascii : Bool) | noWordEdge (ascii : Bool)
  | wordStart (ascii : Bool) | wordEnd (ascii : Bool)
  | noWordBefore (ascii : Bool) | noWordAfter (ascii : Bool)
deriving DecidableEq, Repr, Inhabited

/-- A pattern expression. -/
inductive Expr
  | empty
  | set (chars : CharSet)
  | assertion (a : Assertion)
  | seq (first second : Expr)
  | alt (left right : Expr)
  /-- At least so many times, and at most so many if there is a bound. -/
  | repeated (body : Expr) (least : Nat) (most : Option Nat)
deriving DecidableEq, Repr, Inhabited

namespace Assertion

/-- The word characters of ASCII. -/
def isAsciiWordChar (c : Char) : Bool := c.isAlphanum || c == '_'

/-- There is a word character. -/
def isWord (ascii : Bool) : Option Char → Bool
  | some c => if ascii then isAsciiWordChar c else CharSet.isWordChar c
  | none => false

/-- The test holds at a place. -/
def holds (p : Position) : Assertion → Bool
  | .textStart => p.before.isNone
  | .textEnd => p.rest.isEmpty
  | .lineStart => p.before.isNone || p.before == some '\n'
  | .lineEnd => p.rest.isEmpty || p.rest.head? == some '\n'
  | .crLineStart =>
    p.before.isNone || p.before == some '\n' ||
      (p.before == some '\r' && p.rest.head? != some '\n')
  | .crLineEnd =>
    p.rest.isEmpty || p.rest.head? == some '\r' ||
      (p.rest.head? == some '\n' && p.before != some '\r')
  | .wordEdge ascii => isWord ascii p.before != isWord ascii p.rest.head?
  | .noWordEdge ascii => isWord ascii p.before == isWord ascii p.rest.head?
  | .wordStart ascii => !isWord ascii p.before && isWord ascii p.rest.head?
  | .wordEnd ascii => isWord ascii p.before && !isWord ascii p.rest.head?
  | .noWordBefore ascii => !isWord ascii p.before
  | .noWordAfter ascii => !isWord ascii p.rest.head?

end Assertion

namespace Expr

/-- The places after a number of steps. -/
def stepped (step : Position → List Position) : (times : Nat) → List Position → List Position
  | 0, places => places
  | times + 1, places =>
    if places.isEmpty then [] else stepped step times (places.flatMap step).eraseDups

/-- The places that some number of steps, at most `rounds`, lead to. Only places that are new are
stepped on from. -/
def reached (step : Position → List Position) :
    (rounds : Nat) → (fresh seen : List Position) → List Position
  | 0, _, seen => seen
  | rounds + 1, fresh, seen =>
    let next := ((fresh.flatMap step).eraseDups).filter (fun p => !seen.contains p)
    if next.isEmpty then seen else reached step rounds next (seen ++ next)

/-- Where a match that starts at a place can end. Of repetitions without a bound, no more are
followed than there are places left. -/
def ends : Expr → Position → List Position
  | .empty, p => [p]
  | .set chars, p =>
    match p.rest with
    | [] => []
    | c :: rest => if chars.contains c then [⟨p.index + 1, some c, rest⟩] else []
  | .assertion a, p => if a.holds p then [p] else []
  | .seq first second, p => ((first.ends p).flatMap second.ends).eraseDups
  | .alt left right, p => (left.ends p ++ right.ends p).eraseDups
  | .repeated body least most, p =>
    let started := stepped body.ends least [p]
    let rounds := match most with
      | some most => most - least
      | none => p.rest.length + 1
    reached body.ends rounds started started

/-- The expression matches somewhere in a text. -/
def occursIn (e : Expr) (text : String) : Bool :=
  (Position.onward 0 none text.toList).any (fun p => !(e.ends p).isEmpty)

end Expr

end CauseLists
