-- Who may publish which list types. The question is asked once, before anything else is looked at.
import CauseLists.ListType
import CauseLists.Table

namespace CauseLists

/-- What one identity may publish. -/
inductive Grant
  | any
  | only (listTypes : List ListType)
deriving DecidableEq, Repr

namespace Grant

/-- The grant with one more list type. -/
def adding (listType : ListType) : Grant → Grant
  | .any => .any
  | .only listTypes =>
    .only (if listTypes.contains listType then listTypes else listTypes ++ [listType])

/-- The list type is granted. -/
def allows (listType : ListType) : Grant → Bool
  | .any => true
  | .only listTypes => listTypes.contains listType

end Grant

/-- Grants by identity. Whoever has none is refused. -/
structure AllowList where
  grants : Table String Grant
deriving DecidableEq, Repr

namespace AllowList

/-- Nobody may publish anything. -/
def empty : AllowList := ⟨[]⟩

instance : Inhabited AllowList := ⟨empty⟩

/-- Lets an identity publish a list type. -/
def grant (l : AllowList) (identity : String) (listType : ListType) : AllowList :=
  let present := (Table.get? identity l.grants).getD (.only [])
  ⟨Table.put identity (present.adding listType) l.grants⟩

/-- Lets an identity publish every list type. -/
def grantAll (l : AllowList) (identity : String) : AllowList :=
  ⟨Table.put identity .any l.grants⟩

/-- An identity may publish a list type. -/
def allows (l : AllowList) (identity : String) (listType : ListType) : Bool :=
  match Table.get? identity l.grants with
  | some grant => grant.allows listType
  | none => false

end AllowList

/-- Whoever decides which identity may publish which list type. -/
structure Authorizer where
  allows : String → ListType → Bool

namespace Authorizer

/-- Everyone may publish everything. -/
def everyone : Authorizer := ⟨fun _ _ => true⟩

instance : Inhabited Authorizer := ⟨everyone⟩

/-- An allow list decides. -/
def listed (list : AllowList) : Authorizer := ⟨list.allows⟩

end Authorizer

end CauseLists
