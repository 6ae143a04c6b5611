-- The archive: everything that publishing reads and changes. What the two stores do to it is given
-- apart, so that stores which refuse, or do more than they are asked for, can take their place.
import CauseLists.Ledger
import CauseLists.Payload.Store
import CauseLists.Supersession.KeyLocks

namespace CauseLists

/-- A supply of identifiers. -/
structure IdSupply where
  /-- The identifier that is drawn after so many others. -/
  draw : Nat → ArtefactId
  drawn : Nat

/-- Draws an identifier. -/
def IdSupply.next (s : IdSupply) : ArtefactId × IdSupply :=
  (s.draw s.drawn, { s with drawn := s.drawn + 1 })

/-- Everything that publishing reads and changes. -/
structure Archive (ε : Type) where
  ledger : Ledger
  payloads : PayloadStore
  locks : KeyLocks IdentityKey
  ids : IdSupply
  /-- What the stores note down for themselves. -/
  notes : ε

/-- An archive without artefacts. -/
def Archive.start {ε : Type} (payloads : PayloadStore) (draw : Nat → ArtefactId) (notes : ε) :
    Archive ε :=
  ⟨.empty, payloads, .empty, ⟨draw, 0⟩, notes⟩

/-- What the stores do when they are asked to keep a body and to commit an artefact. -/
structure Stores (ε : Type) where
  persist : Archive ε → Envelope → Bytes → Except StorageError StoredBody × Archive ε
  commit : Archive ε → Commit → Except LedgerError Artefact × Archive ε

namespace Archive

variable {ε : Type}

/-- Keeps a body in the payload store. -/
def persist (a : Archive ε) (envelope : Envelope) (body : Bytes) :
    Except StorageError StoredBody × Archive ε :=
  let (result, payloads) := a.payloads.persist envelope body
  (result, { a with payloads })

/-- Commits an artefact to the ledger. -/
def commit (a : Archive ε) (c : Commit) : Except LedgerError Artefact × Archive ε :=
  let (result, ledger) := a.ledger.commit c
  (result, { a with ledger })

/-- Expires an artefact of the ledger. -/
def expire (a : Archive ε) (id : ArtefactId) (now : Instant) :
    Except LedgerError Artefact × Archive ε :=
  let (result, ledger) := a.ledger.expire id now
  (result, { a with ledger })

end Archive

/-- Stores that do what they are asked for. -/
def Stores.direct {ε : Type} : Stores ε := ⟨Archive.persist, Archive.commit⟩

end CauseLists
