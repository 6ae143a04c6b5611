-- The ledger: every artefact that was ever committed, which one is current under each key, and the
-- chain of each key in the order of its commits. A commit is a compare and set: it names the
-- artefact that it expects to be current, and it changes nothing if another one is.
import CauseLists.Artefact.Basic
import CauseLists.Table

namespace CauseLists

/-- Why the ledger refuses a change. -/
inductive LedgerError
  /-- The current artefact of a key is not the one that was expected. -/
  | notCurrent (key : IdentityKey) (expected actual : Option ArtefactId)
  | notFound (id : ArtefactId)
  | transition (error : TransitionError)
deriving DecidableEq, Repr

/-- An artefact that may not be there, by its identifier. -/
def idText : Option ArtefactId → String
  | some id => id.text
  | none => "none"

def LedgerError.message : LedgerError → String
  | .notCurrent key expected actual =>
    "current artefact for " ++ key.text ++ " is " ++ idText actual ++ ", expected " ++
      idText expected
  | .notFound id => "artefact " ++ id.text ++ " not found"
  | .transition e => e.message

/-- Every artefact, in any state, with what is current and the chains. -/
structure Ledger where
  artefacts : Table ArtefactId Artefact
  current : Table IdentityKey ArtefactId
  chains : Table IdentityKey (List ArtefactId)
  /-- The number of commits so far. -/
  lastSequence : Nat
deriving DecidableEq, Repr

/-- One change to the ledger. -/
structure Commit where
  /-- The new artefact; its place among the commits is given to it here. -/
  artefact : Artefact
  /-- The artefact that it replaces; `none` if none may be current. -/
  supersedes : Option ArtefactId
  now : Instant
deriving DecidableEq, Repr

namespace Ledger

/-- A ledger without artefacts. -/
def empty : Ledger := ⟨[], [], [], 0⟩

instance : Inhabited Ledger := ⟨empty⟩

/-! ## Looking things up -/

/-- An artefact by its identifier. -/
def get? (l : Ledger) (id : ArtefactId) : Option Artefact := Table.get? id l.artefacts

/-- The artefact that is current under a key. -/
def currentFor (l : Ledger) (key : IdentityKey) : Option Artefact :=
  (Table.get? key l.current).bind l.get?

/-- Every artefact that was committed under a key, in order. -/
def history (l : Ledger) (key : IdentityKey) : List Artefact :=
  ((Table.get? key l.chains).getD []).filterMap l.get?

/-- Every current artefact, in the order of the commits. -/
def currentArtefacts (l : Ledger) : List Artefact :=
  ((Table.values l.current).filterMap l.get?).mergeSort (fun a b => a.sequence ≤ b.sequence)

/-- The number of artefacts in any state. -/
def size (l : Ledger) : Nat := l.artefacts.length

/-! ## Changes -/

/-- Files an artefact in place of the one that has this identifier. -/
def refile (l : Ledger) (id : ArtefactId) (a : Artefact) : Ledger :=
  { l with artefacts := Table.put id a l.artefacts }

/-- Adds an artefact at the end of its chain and makes it current. -/
def append (l : Ledger) (a : Artefact) : Artefact × Ledger :=
  let a := { a with sequence := l.lastSequence + 1 }
  (a, { artefacts := Table.put a.id a l.artefacts
        current := Table.put a.key a.id l.current
        chains := Table.put a.key ((Table.get? a.key l.chains).getD [] ++ [a.id]) l.chains
        lastSequence := l.lastSequence + 1 })

/-- Supersedes the artefact that a commit is to replace. -/
def supersedePrior (l : Ledger) (c : Commit) (priorId : ArtefactId) :
    Except LedgerError Unit × Ledger :=
  match l.get? priorId with
  | none => (.error (.notFound priorId), l)
  | some prior =>
    let (result, prior) := prior.supersede c.artefact.id c.now
    (result.mapError .transition, l.refile priorId prior)

/-- Applies a commit: the artefact that it replaces is superseded, and the new one is added. -/
def commit (l : Ledger) (c : Commit) : Except LedgerError Artefact × Ledger :=
  let key := c.artefact.key
  let actual := Table.get? key l.current
  if actual ≠ c.supersedes then (.error (.notCurrent key c.supersedes actual), l)
  else
    match c.supersedes with
    | none =>
      let (a, l) := l.append c.artefact
      (.ok a, l)
    | some priorId =>
      match l.supersedePrior c priorId with
      | (.error e, l) => (.error e, l)
      | (.ok (), l) =>
        let (a, l) := l.append { c.artefact with supersedes := some priorId }
        (.ok a, l)

/-- Retires an artefact whose display window has ended; if it was current, its key has no current
artefact from then on. -/
def expire (l : Ledger) (id : ArtefactId) (now : Instant) : Except LedgerError Artefact × Ledger :=
  match l.get? id with
  | none => (.error (.notFound id), l)
  | some a =>
    match a.expire now with
    | (.error e, a) => (.error (.transition e), l.refile id a)
    | (.ok (), a) =>
      let l := l.refile id a
      let current :=
        if Table.get? a.key l.current = some id then Table.erase a.key l.current else l.current
      (.ok a, { l with current })

end Ledger

end CauseLists
