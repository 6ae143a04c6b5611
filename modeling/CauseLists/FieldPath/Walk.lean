-- Following a path into a document. A walk ends at a node, or at the shallowest place where it
-- cannot go on; every branch of a pattern has an ending of its own, in the order of the document.
import CauseLists.FieldPath.Basic
import CauseLists.Json.Basic

namespace CauseLists

/-- Why a walk could not go on. -/
inductive Obstacle
  /-- The member or element does not exist. -/
  | absent
  /-- The node is null. -/
  | null
  /-- The node cannot hold what the next step asks for. -/
  | wrongKind (expected found : Kind)
deriving DecidableEq, Repr, Inhabited

def Obstacle.message : Obstacle → String
  | .absent => "is missing"
  | .null => "is null"
  | .wrongKind expected found => "expected " ++ expected.phrase ++ ", found " ++ found.phrase

/-- How one branch of a walk ended. -/
inductive Ending
  | found (location : FieldPath) (node : Json)
  | stopped (location : FieldPath) (obstacle : Obstacle)
deriving Repr, Inhabited

namespace Ending

def location : Ending → FieldPath
  | .found location _ => location
  | .stopped location _ => location

/-- The same ending, seen from further out. -/
def under (base : FieldPath) : Ending → Ending
  | .found location node => .found (base ++ location) node
  | .stopped location obstacle => .stopped (base ++ location) obstacle

/-- The node that was reached, with its location. -/
def found? : Ending → Option (FieldPath × Json)
  | .found location node => some (location, node)
  | .stopped _ _ => none

end Ending

/-- The kind of node that a step goes into. -/
def Segment.container : Segment → Kind
  | .key _ => .object
  | .each => .array
  | .index _ => .array

/-- Why a node that is no container for a step cannot be stepped into. -/
def Segment.obstacle (s : Segment) (node : Json) : Obstacle :=
  if node.isNull then .null else .wrongKind s.container node.kind

namespace FieldPath

/-- Follows a path from a node; locations are seen from that node. -/
def walk : FieldPath → Json → List Ending
  | [], node => [.found [] node]
  | .key name :: rest, node =>
    match node with
    | .object members =>
      match members.lookup name with
      | some child => (walk rest child).map (Ending.under [.key name])
      | none => [.stopped [.key name] .absent]
    | _ => [.stopped [] ((Segment.key name).obstacle node)]
  | .index i :: rest, node =>
    match node with
    | .array items =>
      match items[i]? with
      | some item => (walk rest item).map (Ending.under [.index i])
      | none => [.stopped [.index i] .absent]
    | _ => [.stopped [] ((Segment.index i).obstacle node)]
  | .each :: rest, node =>
    match node with
    | .array items =>
      items.zipIdx.flatMap (fun (item, i) => (walk rest item).map (Ending.under [.index i]))
    | _ => [.stopped [] (Segment.each.obstacle node)]

/-- Follows a path from a node whose own location is known. -/
def resolveFrom (p : FieldPath) (node : Json) (base : FieldPath) : List Ending :=
  (p.walk node).map (Ending.under base)

/-- Follows a path from the root of a document. -/
def resolve (p : FieldPath) (document : Json) : List Ending := p.resolveFrom document []

/-- The locations that a path reaches. -/
def locate (p : FieldPath) (document : Json) : List FieldPath :=
  (p.resolve document).filterMap (fun e => e.found?.map Prod.fst)

/-- The node at a location. -/
def get? : FieldPath → Json → Option Json
  | [], node => some node
  | .key name :: rest, .object members => (members.lookup name).bind (get? rest)
  | .index i :: rest, .array items => items[i]?.bind (get? rest)
  | _ :: _, _ => none

/-! ## Removing -/

/-- The members without the first one under a key. -/
def eraseMember (name : String) : List (String × Json) → List (String × Json)
  | [] => []
  | (k, v) :: rest => if k == name then rest else (k, v) :: eraseMember name rest

/-- The members with another value at the first one under a key. -/
def setMember (name : String) (value : Json) : List (String × Json) → List (String × Json)
  | [] => []
  | (k, v) :: rest => if k == name then (k, value) :: rest else (k, v) :: setMember name value rest

/-- Takes every node that a path reaches out of a document, and counts them. A last step to every
element empties the array; the root stays. -/
def remove : FieldPath → Json → Nat × Json
  | [], node => (0, node)
  | [.key name], node =>
    match node with
    | .object members =>
      if (members.lookup name).isSome then (1, .object (eraseMember name members)) else (0, node)
    | _ => (0, node)
  | [.index i], node =>
    match node with
    | .array items => if i < items.length then (1, .array (items.eraseIdx i)) else (0, node)
    | _ => (0, node)
  | [.each], node =>
    match node with
    | .array items => (items.length, .array [])
    | _ => (0, node)
  | .key name :: s :: rest, node =>
    match node with
    | .object members =>
      match members.lookup name with
      | some child =>
        let (n, child) := remove (s :: rest) child
        (n, .object (setMember name child members))
      | none => (0, node)
    | _ => (0, node)
  | .index i :: s :: rest, node =>
    match node with
    | .array items =>
      match items[i]? with
      | some item =>
        let (n, item) := remove (s :: rest) item
        (n, .array (items.set i item))
      | none => (0, node)
    | _ => (0, node)
  | .each :: s :: rest, node =>
    match node with
    | .array items =>
      let parts := items.map (fun item => remove (s :: rest) item)
      ((parts.map Prod.fst).sum, .array (parts.map Prod.snd))
    | _ => (0, node)

end FieldPath

end CauseLists
