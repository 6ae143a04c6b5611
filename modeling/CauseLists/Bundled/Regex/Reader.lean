-- Reading a pattern. The groups that are open are kept as a stack, and every round takes at least
-- one character. Flags hold from where they are set to the end of their group.
import CauseLists.Bundled.Regex.Class

namespace CauseLists

/-! ## Sizes -/

/-- About as many states as a set takes when it is compiled: one for plain ASCII, more for
characters that take several bytes. -/
def CharSet.states : CharSet → Nat
  | .range low high => if high < low then 0 else if high < 0x80 then 1 else 9
  | .digits => 60
  | .blanks => 8
  | .wordChars => 420
  | .union a b => max a.states b.states
  | .inter a b => max a.states b.states
  | .diff a b => a.states + b.states
  | .symDiff a b => a.states + b.states
  | .complement a => a.states + 9
  | .caseless a => a.states + 1

/-- About as many states as an expression takes when it is compiled. -/
def Expr.states : Expr → Nat
  | .empty => 1
  | .set chars => chars.states
  | .assertion _ => 1
  | .seq first second => first.states + second.states
  | .alt left right => left.states + right.states + 1
  | .repeated body least most => body.states * max 1 (most.getD (least + 1)) + 1

namespace Regex

/-- A compiled expression may take ten mebibytes. -/
def maxBytes : Nat := 10485760

/-- A state takes about this many. -/
def stateBytes : Nat := 32

/-- Groups, repetitions and classes may be nested this deep. -/
def maxLevels : Nat := 250

/-- An expression with the levels of nesting in its written form. -/
structure Piece where
  expr : Expr
  levels : Nat
deriving Repr, Inhabited

/-- One part of a sequence. -/
inductive Item
  | piece (p : Piece)
  /-- Flags that were set; nothing can repeat them. -/
  | flags

def Item.levels : Item → Nat
  | .piece p => p.levels
  | .flags => 0

/-- A group whose end is still to come. Items and branches are kept in reverse. -/
structure OpenGroup where
  branches : List Piece
  items : List Item
  /-- The flags that hold at the end of what has been read. -/
  flags : Flags

namespace OpenGroup

/-- A group of which nothing has been read. -/
def start (flags : Flags) : OpenGroup := ⟨[], [], flags⟩

def push (g : OpenGroup) (item : Item) : OpenGroup := { g with items := item :: g.items }

/-- The items since the last bar as one piece. -/
def sequence (g : OpenGroup) : Piece :=
  let exprs := g.items.reverse.filterMap (fun i =>
    match i with
    | .piece p => some p.expr
    | .flags => none)
  let expr := match exprs with
    | [] => .empty
    | e :: rest => rest.foldl .seq e
  let deepest := (g.items.map Item.levels).foldl max 0
  ⟨expr, if g.items.length ≤ 1 then deepest else deepest + 1⟩

/-- A bar ends a branch. -/
def bar (g : OpenGroup) : OpenGroup := { g with branches := g.sequence :: g.branches, items := [] }

/-- All branches as one piece. -/
def closed (g : OpenGroup) : Piece :=
  match (g.sequence :: g.branches).reverse with
  | [] => ⟨.empty, 0⟩
  | [p] => p
  | p :: rest =>
    ⟨rest.foldl (fun e q => .alt e q.expr) p.expr,
      (rest.map Piece.levels).foldl max p.levels + 1⟩

end OpenGroup

/-! ## Repetition -/

/-- Puts a repetition in place of the last item. -/
def repeatLast (g : OpenGroup) (least : Nat) (most : Option Nat) :
    Except Fault OpenGroup :=
  match g.items with
  | .piece p :: items =>
    .ok { g with items := .piece ⟨.repeated p.expr least most, p.levels + 1⟩ :: items }
  | _ => .error .nothingToRepeat

/-- A question mark behind a repetition asks for fewer times first, which does not change what is
matched. -/
def skipLazy : List Char → List Char
  | '?' :: rest => rest
  | cs => cs

/-- A count, with blanks around it. -/
def count (cs : List Char) : Except Fault (Nat × List Char) :=
  let cs := cs.dropWhile Text.isBlank
  match Text.readDigits (cs.takeWhile Text.isDigit) with
  | some n =>
    if n ≤ Text.maxWord32 then .ok (n, (cs.dropWhile Text.isDigit).dropWhile Text.isBlank)
    else .error .badCount
  | none => .error .badCount

/-- The bounds of a counted repetition after their opening brace. -/
def counts (f : Flags) (cs : List Char) :
    Except Fault ((Nat × Option Nat) × List Char) := do
  let (least, cs) ← count (skip f cs)
  let ((least, most), cs) ← (match cs with
    | ',' :: rest =>
      match skip f rest with
      | '}' :: rest => .ok ((least, none), '}' :: rest)
      | rest => (count rest).map (fun (most, rest) => ((least, some most), rest))
    | cs => .ok ((least, some least), cs) : Except Fault ((Nat × Option Nat) × List Char))
  match cs with
  | '}' :: rest =>
    if most.all (fun most => least ≤ most) then .ok ((least, most), rest) else .error .badCount
  | _ => .error .badCount

/-! ## Groups -/

/-- A character that a group's name may hold. -/
def isNameChar (first : Bool) (c : Char) : Bool :=
  if first then c == '_' || (CharSet.isWordChar c && !CharSet.isDecimalDigit c)
  else c == '.' || c == '[' || c == ']' || CharSet.isWordChar c

/-- The name of a group, up to its closing angle. -/
def groupName (known : List String) (cs : List Char) : Except Fault (String × List Char) :=
  let name := cs.takeWhile (fun c => c != '>')
  match cs.dropWhile (fun c => c != '>') with
  | [] => .error .badGroupName
  | _ :: rest =>
    if name.isEmpty || !isNameChar true (name.headD ' ') || !(name.drop 1).all (isNameChar false) ||
        known.contains (String.ofList name) then
      .error .badGroupName
    else .ok (String.ofList name, rest)

/-- The flags with one of them set or cleared; `none` if there is no such flag. -/
def Flags.put (f : Flags) (letter : Char) (on : Bool) : Option Flags :=
  match letter with
  | 'i' => some { f with caseless := on }
  | 'm' => some { f with multiLine := on }
  | 's' => some { f with dotMatchesAll := on }
  | 'R' => some { f with crLines := on }
  | 'u' => some { f with unicode := on }
  | 'x' => some { f with verbose := on }
  | 'U' => some f
  | _ => none

/-- The flags that a row of letters sets, up to the mark at its end: a colon or a closing
parenthesis. A hyphen clears the flags after it. -/
def flagRow (f : Flags) (seen : List Char) :
    List Char → Except Fault (Flags × Char × List Char)
  | [] => .error .badFlags
  | c :: rest =>
    if c == ':' || c == ')' then
      match seen with
      | '-' :: _ => .error .badFlags
      | [] => if c == ')' then .error .nothingToRepeat else .ok (f, c, rest)
      | _ => .ok (f, c, rest)
    else if seen.contains c then .error .badFlags
    else if c == '-' then flagRow f ('-' :: seen) rest
    else
      match f.put c (!seen.contains '-') with
      | some f => flagRow f (c :: seen) rest
      | none => .error .badFlags

/-- What an opening parenthesis turns out to open. -/
inductive Opening
  | group (flags : Flags) (name : Option String)
  | setFlags (flags : Flags)

/-- What follows an opening parenthesis. -/
def opening (f : Flags) (known : List String) (cs : List Char) :
    Except Fault (Opening × List Char) :=
  match skip f cs with
  | '?' :: '=' :: _ => .error .lookAround
  | '?' :: '!' :: _ => .error .lookAround
  | '?' :: '<' :: '=' :: _ => .error .lookAround
  | '?' :: '<' :: '!' :: _ => .error .lookAround
  | '?' :: 'P' :: '<' :: rest =>
    (groupName known rest).map (fun (name, rest) => (.group f (some name), rest))
  | '?' :: '<' :: rest =>
    (groupName known rest).map (fun (name, rest) => (.group f (some name), rest))
  | '?' :: rest =>
    (flagRow f [] rest).map (fun (g, mark, rest) =>
      (if mark == ')' then .setFlags g else .group g none, rest))
  | rest => .ok (.group f none, rest)

/-! ## Single items -/

/-- A set of characters as an item. -/
def setItem (s : CharSet) : Item := .piece ⟨.set s, 0⟩

/-- A test as an item. -/
def assertionItem (a : Assertion) : Item := .piece ⟨.assertion a, 0⟩

/-- One character that stands for itself, in every case of it if case does not count. -/
def charItem (f : Flags) (c : Char) : Except Fault Item :=
  if f.caseless && !isReadable f c then .error .notText
  else .ok (setItem (OpenClass.folded f (.single c)))

/-- Any character but the ends of lines. -/
def dotSet (f : Flags) : CharSet :=
  if f.dotMatchesAll then .all
  else if f.crLines then .complement (.unions [.single '\n', .single '\r'])
  else .complement (.single '\n')

/-- The test that a caret makes. -/
def caret (f : Flags) : Assertion :=
  if f.multiLine then (if f.crLines then .crLineStart else .lineStart) else .textStart

/-- The test that a dollar sign makes. -/
def dollar (f : Flags) : Assertion :=
  if f.multiLine then (if f.crLines then .crLineEnd else .lineEnd) else .textEnd

/-- An escape as an item. -/
def escapedItem (f : Flags) : Escaped → Except Fault Item
  | .char c => charItem f c
  | .set s =>
    if !f.unicode && beyondAscii s then .error .notText
    else .ok (setItem (OpenClass.folded f s))
  | .assertion a => .ok (assertionItem a)

/-! ## The whole pattern -/

/-- The pattern whose innermost open group is `inner`. -/
def body (d : Dialect) : (rounds : Nat) → (known : List String) → (inner : OpenGroup) →
    (outer : List OpenGroup) → List Char → Except Fault Piece
  | 0, _, _, _, _ => .error .unclosedGroup
  | rounds + 1, known, inner, outer, cs =>
    let f := inner.flags
    let goOn (item : Item) (rest : List Char) : Except Fault Piece :=
      body d rounds known (inner.push item) outer rest
    let repeated (least : Nat) (most : Option Nat) (rest : List Char) : Except Fault Piece :=
      match repeatLast inner least most with
      | .ok inner => body d rounds known inner outer (skipLazy rest)
      | .error e => .error e
    match skip f cs with
    | [] =>
      match outer with
      | [] => .ok inner.closed
      | _ :: _ => .error .unclosedGroup
    | '(' :: rest =>
      match opening f known rest with
      | .error e => .error e
      | .ok (.setFlags g, rest) =>
        body d rounds known { inner.push .flags with flags := g } outer rest
      | .ok (.group g name, rest) =>
        body d rounds (name.toList ++ known) (.start g) (inner :: outer) rest
    | ')' :: rest =>
      match outer with
      | [] => .error .unopenedGroup
      | o :: outer =>
        let p := inner.closed
        body d rounds known (o.push (.piece ⟨p.expr, p.levels + 1⟩)) outer rest
    | '|' :: rest => body d rounds known inner.bar outer rest
    | '?' :: rest => repeated 0 (some 1) rest
    | '*' :: rest => repeated 0 none rest
    | '+' :: rest => repeated 1 none rest
    | '\x7b' :: rest =>
      match repeatLast inner 0 none, counts f rest with
      | .ok _, .ok ((least, most), rest) => repeated least most rest
      | .error e, _ => .error e
      | _, .error e => .error e
    | '[' :: rest =>
      match openClass f rest with
      | .error e => .error e
      | .ok (c, rest) =>
        match classBody d f (rest.length + 1) c [] rest with
        | .ok ((s, levels), rest) =>
          if !f.unicode && beyondAscii s then .error .notText
          else goOn (.piece ⟨.set s, levels⟩) rest
        | .error e => .error e
    | '.' :: rest => if f.unicode then goOn (setItem (dotSet f)) rest else .error .notText
    | '^' :: rest => goOn (assertionItem (caret f)) rest
    | '$' :: rest => goOn (assertionItem (dollar f)) rest
    | '\\' :: rest =>
      match escape d f rest with
      | .ok (e, rest) =>
        match escapedItem f e with
        | .ok item => goOn item rest
        | .error e => .error e
      | .error e => .error e
    | c :: rest =>
      match charItem f c with
      | .ok item => goOn item rest
      | .error e => .error e

/-- The expression that a text writes. -/
def read (d : Dialect) (text : String) : Except Fault Expr :=
  let cs := text.toList
  match body d (cs.length + 1) [] (.start .standard) [] cs with
  | .error e => .error e
  | .ok p =>
    if maxLevels < p.levels then .error .tooDeep
    else if maxBytes < p.expr.states * stateBytes then .error .tooLarge
    else .ok p.expr

/-- The classes are those of Unicode. -/
def Dialect.rules : Dialect := ⟨false⟩

/-- The classes are those of ASCII. -/
def Dialect.schemas : Dialect := ⟨true⟩

end Regex

end CauseLists
