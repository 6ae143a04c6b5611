-- Reading a file of the markup: block mappings and sequences by their indentation, flow mappings
-- and sequences by their brackets. What is read here is the common part of the markup; tags,
-- anchors, block scalars and complex keys are refused.
import CauseLists.Bundled.Markup.Scalar

namespace CauseLists.Markup

/-- A node and the place behind it. -/
abbrev Step := Except Fault (Node × Cursor)

/-- The text of a key. -/
def keyText (n : Node) : Except Fault String :=
  match n.text? with
  | some s => .ok s
  | none => .error .unsupported

/-! ## Flow collections -/

mutual

/-- A node inside brackets. -/
def flowNode : (rounds : Nat) → Cursor → Step
  | 0, _ => .error .unclosedFlow
  | rounds + 1, c =>
    if c.atEnd then .error .unclosedFlow
    else
      match c.rest with
      | '[' :: _ => flowItems rounds [] c.next
      | '\x7b' :: _ => flowMembers rounds [] c.next
      | _ => scalar true 0 c

/-- The value behind a colon inside brackets; there may be none. -/
def flowValue : (rounds : Nat) → Cursor → Step
  | 0, _ => .error .unclosedFlow
  | rounds + 1, c => do
    let c ← c.skip true false
    match c.rest with
    | ',' :: _ => return (plainNode "", c)
    | ']' :: _ => return (plainNode "", c)
    | '\x7d' :: _ => return (plainNode "", c)
    | _ => flowNode rounds c

/-- The items of a sequence behind its bracket or a comma. An item with a colon is a mapping of
one member. -/
def flowItems : (rounds : Nat) → (done : List Node) → Cursor → Step
  | 0, _, _ => .error .unclosedFlow
  | rounds + 1, done, c => do
    let c ← c.skip true false
    match c.rest with
    | ']' :: _ => return (.sequence done.reverse, c.next)
    | _ =>
      let start := c.line
      let (n, c) ← flowNode rounds c
      let c ← c.skip true false
      let (n, c) ← (match c.rest with
        | ':' :: _ =>
          if c.line == start then
            match keyText n with
            | .ok key =>
              (flowValue rounds c.next).map (fun (v, c) => (Node.mapping [(key, v)], c))
            | .error e => .error e
          else .error .missingComma
        | _ => .ok (n, c) : Step)
      let c ← c.skip true false
      match c.rest with
      | ',' :: _ => flowItems rounds (n :: done) c.next
      | ']' :: _ => return (.sequence (n :: done).reverse, c.next)
      | _ => .error .missingComma

/-- The members of a mapping behind its brace or a comma. A key without a colon has no value. -/
def flowMembers : (rounds : Nat) → (done : List (String × Node)) → Cursor → Step
  | 0, _, _ => .error .unclosedFlow
  | rounds + 1, done, c => do
    let c ← c.skip true false
    match c.rest with
    | '\x7d' :: _ => return (.mapping done.reverse, c.next)
    | _ =>
      let start := c.line
      let (n, c) ← flowNode rounds c
      let key ← keyText n
      let c ← c.skip true false
      let (v, c) ← (match c.rest with
        | ':' :: _ =>
          if c.line == start then flowValue rounds c.next else .error .missingComma
        | _ => .ok (plainNode "", c) : Step)
      let c ← c.skip true false
      match c.rest with
      | ',' :: _ => flowMembers rounds ((key, v) :: done) c.next
      | '\x7d' :: _ => return (.mapping ((key, v) :: done).reverse, c.next)
      | _ => .error .missingComma

end

/-! ## Block collections -/

/-- An item of a block sequence begins here. -/
def startsItem : List Char → Bool
  | '-' :: rest => endsToken rest
  | _ => false

/-- A colon comes next that ends a key which began on `line`. -/
def Cursor.endsKey (line : Nat) (c : Cursor) : Bool :=
  c.line == line && c.rest.head? == some ':' && endsToken (c.rest.drop 1)

/-- Blanks of one line. -/
def Cursor.skipBlanks (c : Cursor) : Cursor :=
  let blanks := (c.rest.takeWhile isSpace).length
  { c with rest := c.rest.drop blanks, column := c.column + blanks }

/-- A key of a block mapping whose keys stand in `column`, and the place behind its colon. -/
def blockKey (column : Nat) (c : Cursor) : Except Fault (String × Cursor) := do
  if startsItem c.rest then .error .misplacedItem
  let (n, d) ← scalar false (column + 1) c
  let d := d.skipBlanks
  if d.endsKey c.line then return (← keyText n, d.next) else .error .missingColon

mutual

/-- A node that is indented by more than `indent`. On the line of the key or the document mark that
it belongs to, it can be neither a mapping nor a sequence of its own. -/
def blockNode : (rounds : Nat) → (indent : Int) → (inline : Bool) → Cursor → Step
  | 0, _, _, _ => .error .badIndent
  | rounds + 1, indent, inline, c =>
    if startsItem c.rest then
      if inline then .error .misplacedItem else blockItems rounds c.column false [] c
    else
      let start : Step := match c.rest with
        | '[' :: _ => flowNode rounds c
        | '\x7b' :: _ => flowNode rounds c
        | _ => scalar false (indent + 1) c
      match start with
      | .error e => .error e
      | .ok (n, d) =>
        let k := d.skipBlanks
        if k.rest.head? == some ':' && endsToken (k.rest.drop 1) then
          if k.endsKey c.line && !inline then
            match keyText n with
            | .ok key => blockMembers rounds c.column [] key k.next
            | .error e => .error e
          else .error .misplacedKey
        else .ok (n, d)

/-- The value behind the colon of a key in `column`. -/
def blockValue : (rounds : Nat) → (column : Nat) → Cursor → Step
  | 0, _, _ => .error .badIndent
  | rounds + 1, column, c => do
    let d ← c.skip false false
    if d.atEnd then return (plainNode "", d)
    else if d.line == c.line then blockNode rounds column true d
    else if column < d.column then blockNode rounds column false d
    else if d.column == column && startsItem d.rest then blockItems rounds column true [] d
    else return (plainNode "", d)

/-- The members of a mapping whose keys stand in `column`, from the value of the given key on. -/
def blockMembers : (rounds : Nat) → (column : Nat) → (done : List (String × Node)) →
    (key : String) → Cursor → Step
  | 0, _, _, _, _ => .error .badIndent
  | rounds + 1, column, done, key, c => do
    let (v, c) ← blockValue rounds column c
    let done := (key, v) :: done
    let d ← c.skip false (c.column == 0)
    if d.atEnd || d.column < column then return (.mapping done.reverse, d)
    else if column < d.column then .error .badIndent
    else
      let (key, d) ← blockKey column d
      blockMembers rounds column done key d

/-- The items of a sequence whose hyphens stand in `column`. A sequence that is no further indented
than the mapping around it ends where the mapping goes on. -/
def blockItems : (rounds : Nat) → (column : Nat) → (shared : Bool) → (done : List Node) →
    Cursor → Step
  | 0, _, _, _, _ => .error .badIndent
  | rounds + 1, column, shared, done, c => do
    let d ← c.next.skip false true
    let (n, d) ←
      if d.atEnd then .ok (plainNode "", d)
      else if d.line == c.line || column < d.column then blockNode rounds column false d
      else .ok (plainNode "", d)
    let done := n :: done
    let d ← d.skip false (d.column == 0)
    if d.atEnd || d.column < column then return (.sequence done.reverse, d)
    else if column < d.column then .error .badIndent
    else if startsItem d.rest then blockItems rounds column shared done d
    else if shared then return (.sequence done.reverse, d)
    else .error .badIndent

end

/-! ## Documents -/

/-- The characters that a file may hold. -/
def isAllowed (c : Char) : Bool :=
  let n := c.toNat
  n == 0x09 || n == 0x0a || n == 0x0d || (0x20 ≤ n && n ≤ 0x7e) || n == 0x85 ||
    (0xa0 ≤ n && n ≤ 0xfffd && n != 0xfeff) || 0x10000 ≤ n

/-- Every break as a line feed. -/
def withLineFeeds : List Char → List Char
  | '\r' :: '\n' :: rest => '\n' :: withLineFeeds rest
  | '\r' :: rest => '\n' :: withLineFeeds rest
  | c :: rest => c :: withLineFeeds rest
  | [] => []

/-- Behind the end of a document nothing may follow but blanks and comments. -/
def finish (c : Cursor) : Except Fault Unit :=
  match c.rest with
  | [] => .ok ()
  | '.' :: _ => do
    let c ← Cursor.skip false false { c with rest := c.rest.drop 3, column := c.column + 3 }
    if c.rest.isEmpty then .ok () else .error .secondDocument
  | _ => .error .secondDocument

/-- The only document of a file. -/
def document (cs : List Char) : Except Fault Node := do
  let rounds := 4 * cs.length + 8
  let c ← Cursor.skip false true ⟨cs, 0, 0⟩
  if c.rest.head? == some '%' && c.column == 0 then .error .unsupported
  let (marked, c) ←
    if c.column == 0 && c.rest.head? == some '-' && isDocumentMark c.rest then
      (Cursor.skip false false { c with rest := c.rest.drop 3, column := 3 }).map
        (fun d => (d.line == c.line, d))
    else .ok (false, c)
  if c.atEnd then
    finish c
    return plainNode ""
  let (n, c) ← blockNode rounds (-1) marked c
  let c ← c.skip false (c.column == 0)
  if c.atEnd then
    finish c
    return n
  else .error .badIndent

/-- Reads the only document of a file. -/
def parse (text : String) : Except Fault Node :=
  let cs := match text.toList with
    | '\ufeff' :: rest => rest
    | cs => cs
  if cs.all isAllowed then document (withLineFeeds cs) else .error .controlCharacter

end CauseLists.Markup
