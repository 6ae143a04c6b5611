-- The engine decides whether a submission takes the place of the current artefact of its key, and
-- carries that out. From the look at the current artefact to the commit it holds the lock of the
-- key; submissions for other keys do not wait for it.
import CauseLists.Supersession.Archive

namespace CauseLists

/-- What becomes of the current artefact when a submission is committed. -/
inductive Decision
  /-- None is current; the submission begins, or goes on with, a chain on its own. -/
  | createNew
  /-- The submission takes the place of an artefact. -/
  | supersede (prior : ArtefactId)
deriving DecidableEq, Repr, Inhabited

namespace Decision

/-- The artefact that is replaced. -/
def prior : Decision → Option ArtefactId
  | .createNew => none
  | .supersede id => some id

def text : Decision → String
  | .createNew => "CREATE_NEW"
  | .supersede id => "SUPERSEDE(" ++ id.text ++ ")"

end Decision

/-- What comes of committing a candidate. An artefact is superseded only if it is current, its
display window has not ended, and it has the key of the candidate. -/
def resolve (candidate : Envelope) (existing : Option Artefact) (now : Instant) : Decision :=
  match existing with
  | some prior =>
    if prior.isCurrent && !prior.hasEnded now && prior.key = candidate.key then
      .supersede prior.id
    else .createNew
  | none => .createNew

/-- A commit that was carried out. -/
structure Committed where
  /-- The new current artefact. -/
  artefact : Artefact
  decision : Decision
  /-- An artefact whose window had ended, and that was expired and not superseded. -/
  expired : Option ArtefactId
deriving DecidableEq, Repr

/-- What two submissions got in each other's way about. -/
inductive Contention
  /-- Somebody else held the lock for longer than one waits. -/
  | lockTimeout (milliseconds : Nat)
  | currentChanged
  | artefactGone
deriving DecidableEq, Repr, Inhabited

def Contention.message : Contention → String
  | .lockTimeout ms => "lock not acquired within " ++ toString ms ++ "ms"
  | .currentChanged => "current artefact changed since the decision was made"
  | .artefactGone => "artefact disappeared during commit"

/-- Why a commit is not carried out. -/
inductive CommitError
  /-- Another submission was faster; one may try again. -/
  | conflict (subject : String) (contention : Contention)
  | storage (error : StorageError)
  | transition (error : TransitionError)
deriving DecidableEq, Repr, Inhabited

namespace CommitError

def message : CommitError → String
  | .conflict subject contention =>
    "supersession conflict for " ++ subject ++ ": " ++ contention.message
  | .storage e => e.message
  | .transition e => e.message

/-- A refusal of the ledger during a commit. -/
def ofLedger : LedgerError → CommitError
  | .notCurrent key _ _ => .conflict key.text .currentChanged
  | .notFound id => .conflict id.text .artefactGone
  | .transition e => .transition e

end CommitError

/-- An engine over some stores. -/
structure Engine (ε : Type) where
  stores : Stores ε
  /-- How long it waits for a lock, in milliseconds. -/
  lockTimeout : Nat

namespace Engine

variable {ε : Type}

/-- Expires the current artefact of a key if its window has ended. Gives the artefact that is
current then, and the one that was expired. -/
def clearEnded (a : Archive ε) (key : IdentityKey) (now : Instant) :
    Except CommitError (Option Artefact × Option ArtefactId) × Archive ε :=
  match a.ledger.currentFor key with
  | none => (.ok (none, none), a)
  | some existing =>
    if existing.hasEnded now then
      match a.expire existing.id now with
      | (.error e, a) => (.error (.ofLedger e), a)
      | (.ok _, a) => (.ok (none, some existing.id), a)
    else (.ok (some existing, none), a)

/-- Commits a submission while the lock of its key is held: makes room, decides, keeps the body,
and commits the artefact. -/
def commitLocked (e : Engine ε) (a : Archive ε) (envelope : Envelope) (body : Bytes)
    (now : Instant) : Except CommitError Committed × Archive ε :=
  match clearEnded a envelope.key now with
  | (.error err, a) => (.error err, a)
  | (.ok (existing, expired), a) =>
    let decision := resolve envelope existing now
    match e.stores.persist a envelope body with
    | (.error err, a) => (.error (.storage err), a)
    | (.ok stored, a) =>
      let (id, ids) := a.ids.next
      let commit : Commit := ⟨.new id envelope stored now, decision.prior, now⟩
      match e.stores.commit { a with ids } commit with
      | (.error err, a) => (.error (.ofLedger err), a)
      | (.ok artefact, a) => (.ok ⟨artefact, decision, expired⟩, a)

/-- Does something while the lock of a key is held, or something else if it cannot be had. The
lock is given back either way. -/
def withLock {α : Type} (a : Archive ε) (key : IdentityKey) (timedOut : α)
    (act : Archive ε → α × Archive ε) : α × Archive ε :=
  let (handle, locks) := a.locks.handle key
  match locks.tryLock handle with
  | none => (timedOut, { a with locks := locks.release handle })
  | some locks =>
    let (result, a) := act { a with locks }
    (result, { a with locks := (a.locks.unlock handle).release handle })

/-- Keeps the body of a submission and commits a new current artefact for it. -/
def commit (e : Engine ε) (a : Archive ε) (envelope : Envelope) (body : Bytes) (now : Instant) :
    Except CommitError Committed × Archive ε :=
  let timedOut := .error (.conflict envelope.key.text (.lockTimeout e.lockTimeout))
  withLock a envelope.key timedOut (fun a => e.commitLocked a envelope body now)

/-! ## Expiry sweeps -/

/-- Expires an artefact if it is still current under its key. -/
def expireIfCurrent (a : Archive ε) (key : IdentityKey) (id : ArtefactId) (now : Instant) :
    Except CommitError (Option ArtefactId) × Archive ε :=
  match a.ledger.currentFor key with
  | none => (.ok none, a)
  | some current =>
    if current.id = id then
      match a.expire id now with
      | (.error err, a) => (.error (.ofLedger err), a)
      | (.ok _, a) => (.ok (some id), a)
    else (.ok none, a)

/-- Expires candidates one after another, each under the lock of its key. A key that is locked is
passed over and left for the next sweep. -/
def expireEach (a : Archive ε) (now : Instant) : List Artefact →
    Except CommitError (List ArtefactId) × Archive ε
  | [] => (.ok [], a)
  | candidate :: rest =>
    match withLock a candidate.key (.ok none)
        (fun a => expireIfCurrent a candidate.key candidate.id now) with
    | (.error err, a) => (.error err, a)
    | (.ok expired, a) =>
      match expireEach a now rest with
      | (.error err, a) => (.error err, a)
      | (.ok more, a) => (.ok (expired.toList ++ more), a)

/-- Expires every current artefact whose display window has ended. -/
def expireDue (a : Archive ε) (now : Instant) :
    Except CommitError (List ArtefactId) × Archive ε :=
  expireEach a now (a.ledger.currentArtefacts.filter (fun c => c.hasEnded now))

end Engine

end CauseLists
