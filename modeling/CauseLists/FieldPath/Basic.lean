-- Paths into a document. A pattern such as courtLists[*].courtHouse.name may reach many nodes;
-- a location such as courtLists[0].courtHouse.name, which has no [*], reaches at most one.
import CauseLists.Text.Blank
import CauseLists.Text.Numeral

namespace CauseLists

/-- One step of a path. -/
inductive Segment
  /-- A member of an object. -/
  | key (name : String)
  /-- Every element of an array. -/
  | each
  /-- One element of an array. -/
  | index (position : Nat)
deriving DecidableEq, Repr, Inhabited

/-- The steps of a path, outermost first. -/
abbrev FieldPath := List Segment

/-- Why a text is no path. -/
inductive PathFault
  | unclosedBracket | badIndex | expectedSeparator | emptyKey | strayBracket
deriving DecidableEq, Repr, Inhabited

def PathFault.message : PathFault → String
  | .unclosedBracket => "unclosed '['"
  | .badIndex => "array index must be '*' or a non-negative integer"
  | .expectedSeparator => "expected '.' or '[' between segments"
  | .emptyKey => "empty key"
  | .strayBracket => "unbalanced ']'"

/-- A text that should have been a path. -/
structure PathError where
  path : String
  fault : PathFault
deriving DecidableEq, Repr, Inhabited

def PathError.message (e : PathError) : String :=
  "invalid field path \"" ++ e.path ++ "\": " ++ e.fault.message

namespace FieldPath

/-! ## Reading -/

/-- Where a reader stands in the text of a path. What it has read of a key or of a bracket is kept
in reverse. -/
inductive ReaderPlace
  /-- In front of the first step. -/
  | start
  /-- Behind a step. -/
  | between
  | inKey (read : List Char)
  | inBracket (read : List Char)

/-- The step that a key writes. -/
def keyStep (key : List Char) : Except PathFault Segment :=
  if key.isEmpty then .error .emptyKey
  else if key.contains ']' then .error .strayBracket
  else .ok (.key (String.ofList key))

/-- The step that the inside of a bracket writes. -/
def bracketStep (inner : List Char) : Except PathFault Segment :=
  if inner = ['*'] then .ok .each
  else
    match Text.readNatural Text.maxWord64 inner with
    | some i => .ok (.index i)
    | none => .error .badIndex

/-- The steps that a text writes. -/
def steps : ReaderPlace → List Char → Except PathFault (List Segment)
  | .start, [] => .ok []
  | .between, [] => .ok []
  | .inKey read, [] => (keyStep read.reverse).map (fun s => [s])
  | .inBracket _, [] => .error .unclosedBracket
  | .start, c :: rest =>
    if c = '[' then steps (.inBracket []) rest
    else if c = '.' then .error .emptyKey
    else steps (.inKey [c]) rest
  | .between, c :: rest =>
    if c = '[' then steps (.inBracket []) rest
    else if c = '.' then steps (.inKey []) rest
    else .error .expectedSeparator
  | .inKey read, c :: rest =>
    if c = '[' then
      match keyStep read.reverse with
      | .ok s => (steps (.inBracket []) rest).map (fun more => s :: more)
      | .error e => .error e
    else if c = '.' then
      match keyStep read.reverse with
      | .ok s => (steps (.inKey []) rest).map (fun more => s :: more)
      | .error e => .error e
    else steps (.inKey (c :: read)) rest
  | .inBracket read, c :: rest =>
    if c = ']' then
      match bracketStep read.reverse with
      | .ok s => (steps .between rest).map (fun more => s :: more)
      | .error e => .error e
    else steps (.inBracket (c :: read)) rest

/-- A path may begin with `$`, and then with a dot. -/
def withoutRootMark : List Char → List Char
  | '$' :: '.' :: rest => rest
  | '$' :: rest => rest
  | cs => cs

/-- The path that a text writes, whatever the blanks around it. -/
def parse (text : String) : Except PathError FieldPath :=
  match steps .start (withoutRootMark (Text.trimChars text.toList)) with
  | .ok segments => .ok segments
  | .error fault => .error ⟨text, fault⟩

/-! ## Writing -/

/-- A step behind another one. -/
def stepText : Segment → String
  | .key name => "." ++ name
  | .each => "[*]"
  | .index i => "[" ++ toString i ++ "]"

/-- The text of a path; the empty path is written `$`. -/
def text : FieldPath → String
  | [] => "$"
  | .key name :: rest => name ++ String.join (rest.map stepText)
  | s :: rest => stepText s ++ String.join (rest.map stepText)

/-! ## Parts -/

/-- The path reaches at most one node of any document. -/
def isConcrete (p : FieldPath) : Bool := !p.contains .each

/-- The path of the holder and the last step. -/
def splitLast? (p : FieldPath) : Option (FieldPath × Segment) :=
  p.getLast?.map (fun last => (p.dropLast, last))

/-- The other path is a proper beginning of this one. -/
def isStrictlyBelow (p ancestor : FieldPath) : Bool :=
  ancestor.length < p.length && ancestor.isPrefixOf p

end FieldPath

/-! ## Order -/

/-- Keys by their text, then the step to every element, then indices by size. -/
def Segment.order : Segment → Segment → Ordering
  | .key a, .key b => compare a b
  | .key _, _ => .lt
  | .each, .key _ => .gt
  | .each, .each => .eq
  | .each, .index _ => .lt
  | .index i, .index j => compare i j
  | .index _, _ => .gt

namespace FieldPath

/-- Paths by their first different step; a beginning comes before what continues it. -/
def order : FieldPath → FieldPath → Ordering
  | [], [] => .eq
  | [], _ :: _ => .lt
  | _ :: _, [] => .gt
  | a :: as, b :: bs => (a.order b).then (order as bs)

/-! ## JSON pointers -/

/-- A token of a pointer with its escapes undone. -/
def unescapeToken : List Char → List Char
  | '~' :: '1' :: rest => '/' :: unescapeToken rest
  | '~' :: '0' :: rest => '~' :: unescapeToken rest
  | c :: rest => c :: unescapeToken rest
  | [] => []

/-- A key with the characters escaped that a pointer gives a meaning to. -/
def escapeToken : List Char → List Char
  | [] => []
  | c :: rest =>
    if c = '~' then '~' :: '0' :: escapeToken rest
    else if c = '/' then '~' :: '1' :: escapeToken rest
    else c :: escapeToken rest

/-- The step of a token: a numeral is an index, whatever it stood for in the document. -/
def tokenStep (token : List Char) : Segment :=
  match Text.readNatural Text.maxWord64 token with
  | some i => .index i
  | none => .key (String.ofList token)

/-- The parts of a pointer between slashes. -/
def tokens (pointer : String) : List (List Char) := pointer.toList.splitOn '/'

/-- The location that a pointer names; what stands before its first slash does not count. -/
def ofPointer (pointer : String) : FieldPath :=
  ((tokens pointer).drop 1).map (fun t => tokenStep (unescapeToken t))

/-- A step as the token of a pointer. -/
def stepToken : Segment → List Char
  | .key name => escapeToken name.toList
  | .each => ['*']
  | .index i => (toString i).toList

/-- The pointer to a location. -/
def pointer (p : FieldPath) : String :=
  String.ofList (p.flatMap (fun s => '/' :: stepToken s))

end FieldPath

end CauseLists
