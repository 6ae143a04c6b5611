-- The bracketed classes of patterns: items, ranges, named classes, classes inside classes, and the
-- operators on them. The classes that are open are kept as a stack.
import CauseLists.Bundled.Regex.Escape

namespace CauseLists.Regex

/-- The named classes of ASCII. -/
def namedClass (name : String) : Option CharSet :=
  let digit := CharSet.between '0' '9'
  let upper := CharSet.between 'A' 'Z'
  let lower := CharSet.between 'a' 'z'
  match name with
  | "alnum" => some (.unions [digit, upper, lower])
  | "alpha" => some (.unions [upper, lower])
  | "ascii" => some (.range 0x00 0x7f)
  | "blank" => some (.unions [.single '\t', .single ' '])
  | "cntrl" => some (.unions [.range 0x00 0x1f, .range 0x7f 0x7f])
  | "digit" => some digit
  | "graph" => some (.range 0x21 0x7e)
  | "lower" => some lower
  | "print" => some (.range 0x20 0x7e)
  | "punct" =>
    some (.unions [.range 0x21 0x2f, .range 0x3a 0x40, .range 0x5b 0x60, .range 0x7b 0x7e])
  | "space" => some (.unions [.range 0x09 0x0d, .single ' '])
  | "upper" => some upper
  | "word" => some (.unions [digit, upper, lower, .single '_'])
  | "xdigit" => some (.unions [digit, .between 'A' 'F', .between 'a' 'f'])
  | _ => none

/-- A named class after its opening bracket; `none` if the bracket opens something else. -/
def maybeNamedClass (cs : List Char) : Option (CharSet × List Char) :=
  match cs with
  | ':' :: rest =>
    let (negated, rest) := match rest with
      | '^' :: rest => (true, rest)
      | _ => (false, rest)
    let name := rest.takeWhile (fun c => c != ':')
    match rest.dropWhile (fun c => c != ':') with
    | ':' :: ']' :: rest =>
      (namedClass (String.ofList name)).map (fun s => (if negated then .complement s else s, rest))
    | _ => none
  | _ => none

/-- How two classes are joined by an operator. -/
inductive ClassOp
  | inter | diff | symDiff

def ClassOp.apply : ClassOp → CharSet → CharSet → CharSet
  | .inter, a, b => .inter a b
  | .diff, a, b => .diff a b
  | .symDiff, a, b => .symDiff a b

/-- A class whose closing bracket is still to come. -/
structure OpenClass where
  negated : Bool
  /-- What stands in front of the last operator. -/
  pending : Option (CharSet × ClassOp)
  /-- What has been read since. -/
  items : List CharSet
  levels : Nat

namespace OpenClass

/-- A set with every case of its letters, if case does not count. Without the flag for Unicode only
the letters of ASCII have cases. -/
def folded (f : Flags) (s : CharSet) : CharSet :=
  if !f.caseless then s
  else if f.unicode then .caseless s
  else .union s (.inter (.caseless s) (.range 0x00 0x7f))

/-- What has been read, all operators applied. -/
def joined (f : Flags) (o : OpenClass) : CharSet :=
  let right := CharSet.unions o.items.reverse
  match o.pending with
  | some (left, op) => op.apply (folded f left) (folded f right)
  | none => right

def push (o : OpenClass) (s : CharSet) : OpenClass := { o with items := s :: o.items }

/-- What has been read becomes the left side of an operator. -/
def split (f : Flags) (o : OpenClass) (op : ClassOp) : OpenClass :=
  { o with pending := some (o.joined f, op), items := [], levels := o.levels + 1 }

/-- The class when it is closed. -/
def closed (f : Flags) (o : OpenClass) : CharSet :=
  let s := folded f (o.joined f)
  if o.negated then .complement s else s

end OpenClass

/-- The hyphens that open a class stand for themselves. -/
def openingHyphens (f : Flags) : List CharSet → List Char → List CharSet × List Char
  | items, [] => (items, [])
  | items, c :: rest =>
    if c == '-' then openingHyphens f (.single '-' :: items) rest
    else if f.verbose && Text.isBlank c then openingHyphens f items rest
    else (items, c :: rest)

/-- A class after its opening bracket. A bracket that would close it at once stands for itself. -/
def openClass (f : Flags) (cs : List Char) : Except Fault (OpenClass × List Char) :=
  let cs := skip f cs
  let (negated, cs) := match cs with
    | '^' :: rest => (true, skip f rest)
    | _ => (false, cs)
  let (items, cs) := openingHyphens f [] cs
  match items, skip f cs with
  | _, [] => .error .unclosedClass
  | [], ']' :: rest =>
    match skip f rest with
    | [] => .error .unclosedClass
    | rest => .ok (⟨negated, none, [.single ']'], 1⟩, rest)
  | items, cs => .ok (⟨negated, none, items, 1⟩, cs)

/-- One item of a class, before it is known whether a range starts with it. -/
def classItem (d : Dialect) (f : Flags) : List Char → Except Fault (Escaped × List Char)
  | [] => .error .unclosedClass
  | '\\' :: rest => do
    let (e, rest) ← escape d f rest
    match e with
    | .char c => if isReadable f c then .ok (e, rest) else .error .notText
    | e => .ok (e, rest)
  | c :: rest => if isReadable f c then .ok (.char c, rest) else .error .notText

/-- The set of an item that stands by itself. -/
def itemSet : Escaped → Except Fault CharSet
  | .char c => .ok (.single c)
  | .set s => .ok s
  | .assertion _ => .error .badClassEscape

/-- An item or a range of a class. A hyphen in front of a closing bracket or of another hyphen
makes no range. -/
def classRange (d : Dialect) (f : Flags) (cs : List Char) :
    Except Fault (CharSet × List Char) := do
  let (first, cs) ← classItem d f cs
  match skip f cs with
  | [] => .error .unclosedClass
  | '-' :: rest =>
    match skip f rest with
    | [] => .error .unclosedClass
    | ']' :: _ => return (← itemSet first, '-' :: rest)
    | '-' :: _ => return (← itemSet first, '-' :: rest)
    | rest =>
      let (last, rest) ← classItem d f rest
      match first, last with
      | .char a, .char b =>
        if a.toNat ≤ b.toNat then .ok (.between a b, rest) else .error .badRange
      | _, _ => .error .badRange
  | cs => return (← itemSet first, cs)

/-- The class of which `open` is the innermost part. Every round takes a character or more. -/
def classBody (d : Dialect) (f : Flags) :
    (rounds : Nat) → (inner : OpenClass) → (outer : List OpenClass) → List Char →
      Except Fault ((CharSet × Nat) × List Char)
  | 0, _, _, _ => .error .unclosedClass
  | rounds + 1, inner, outer, cs =>
    match skip f cs with
    | [] => .error .unclosedClass
    | '[' :: rest =>
      match maybeNamedClass rest with
      | some (s, rest) => classBody d f rounds (inner.push s) outer rest
      | none =>
        match openClass f rest with
        | .ok (new, rest) => classBody d f rounds new (inner :: outer) rest
        | .error e => .error e
    | ']' :: rest =>
      let s := inner.closed f
      match outer with
      | [] => .ok ((s, inner.levels), rest)
      | o :: outer =>
        let o := { o.push s with levels := max o.levels (inner.levels + 1) }
        classBody d f rounds o outer rest
    | '&' :: '&' :: rest => classBody d f rounds (inner.split f .inter) outer rest
    | '-' :: '-' :: rest => classBody d f rounds (inner.split f .diff) outer rest
    | '~' :: '~' :: rest => classBody d f rounds (inner.split f .symDiff) outer rest
    | cs =>
      match classRange d f cs with
      | .ok (s, rest) => classBody d f rounds (inner.push s) outer rest
      | .error e => .error e

end CauseLists.Regex
