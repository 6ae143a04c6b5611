-- Envelopes. A submitted envelope holds whatever the provider sent; an envelope that was accepted
-- holds every field in its canonical form, and names the chain of publications that it joins.
import CauseLists.Calendar.Rfc3339
import CauseLists.Envelope.Words
import CauseLists.ListType

namespace CauseLists

/-- An envelope as it was submitted: any field may be missing, and words are still raw text. -/
structure SubmittedEnvelope where
  provenance : Option String
  sourceId : Option String
  artefactType : Option String
  sensitivity : Option String
  language : Option String
  displayFrom : Option Instant
  displayTo : Option Instant
  listType : Option String
  location : Option String
  contentDate : Option Instant
deriving DecidableEq, Repr, Inhabited

/-- An envelope in canonical form. -/
structure Envelope where
  provenance : String
  /-- Manual uploads may come without the provider's identifier. -/
  sourceId : Option String
  artefactType : ArtefactType
  sensitivity : Sensitivity
  language : Language
  displayFrom : Instant
  displayTo : Instant
  listType : ListType
  location : String
  contentDate : Instant
deriving DecidableEq, Repr

/-- The key under which at most one artefact is current. -/
inductive IdentityKey
  /-- By the provider's own identifier. -/
  | sourced (provenance sourceId : String) (listType : ListType) (location : String)
  /-- By content, for submissions without such an identifier. -/
  | contentBased (provenance : String) (listType : ListType) (location : String)
      (contentDate : Instant) (language : Language)
deriving DecidableEq, Repr

namespace Envelope

/-- The chain that an envelope joins. -/
def key (e : Envelope) : IdentityKey :=
  match e.sourceId with
  | some sourceId => .sourced e.provenance sourceId e.listType e.location
  | none => .contentBased e.provenance e.listType e.location e.contentDate e.language

/-- The display window has ended. -/
def hasEnded (e : Envelope) (now : Instant) : Bool := e.displayTo < now

end Envelope

namespace IdentityKey

def listType : IdentityKey → ListType
  | .sourced _ _ listType _ => listType
  | .contentBased _ listType _ _ _ => listType

/-- The parts of a key with slashes between them. -/
def text : IdentityKey → String
  | .sourced provenance sourceId listType location =>
    "/".intercalate [provenance, sourceId, listType.name, location]
  | .contentBased provenance listType location contentDate language =>
    "/".intercalate [provenance, listType.name, location, contentDate.date.text, language.word]

end IdentityKey

end CauseLists
