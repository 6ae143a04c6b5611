-- Calls that get in each other's way. The work of a commit, and that of each expiry of a sweep, is
-- cut into the steps that nothing can interrupt: asking for the lock, looking at what is current,
-- expiring, keeping the body, committing, and giving the lock back. Any number of workers may take
-- their steps in any order, and new ones may come up between any two steps.
import CauseLists.Supersession.Engine

namespace CauseLists

/-! ## Sections -/

/-- Work that is done under the lock of a key: a commit, or the expiry of one candidate. -/
inductive Section
  | commit (envelope : Envelope) (body : Bytes) (now : Instant)
  | expiry (candidate : Artefact) (now : Instant)
deriving DecidableEq, Repr

namespace Section

/-- The key whose lock is needed. -/
def key : Section → IdentityKey
  | .commit envelope _ _ => envelope.key
  | .expiry candidate _ => candidate.key

/-- What came of a section. -/
inductive Outcome
  /-- What the payload store said to the body, and what was answered to the commit. -/
  | committed (kept : Except StorageError StoredBody) (answer : Except CommitError Committed)
  /-- The candidate if it was expired. -/
  | expired (id : Option ArtefactId)

/-- A section with what came of it. -/
abbrev Record := Section × Outcome

/-- How far a section has come. From entering to leaving it has the lock with the number. -/
inductive Stage
  | asking
  /-- Somebody else has the lock. -/
  | refused
  | entered (lock : Nat)
  /-- It is known what is current under the key. -/
  | looked (lock : Nat) (found : Option Artefact)
  /-- A commit has made room: something may stand there, or something was expired. -/
  | cleared (lock : Nat) (existing : Option Artefact) (expired : Option ArtefactId)
  /-- The body is kept. -/
  | kept (lock : Nat) (existing : Option Artefact) (expired : Option ArtefactId)
    (stored : StoredBody)
  | settled (lock : Nat) (outcome : Outcome)
  | left (outcome : Outcome)
  /-- The ledger has refused a change. -/
  | failed (lock : Nat) (error : LedgerError)
  | aborted (error : LedgerError)

/-- The lock that is held at a stage. -/
def Stage.lock? : Stage → Option Nat
  | .entered lock => some lock
  | .looked lock _ => some lock
  | .cleared lock _ _ => some lock
  | .kept lock _ _ _ => some lock
  | .settled lock _ => some lock
  | .failed lock _ => some lock
  | .asking => none
  | .refused => none
  | .left _ => none
  | .aborted _ => none

/-- The outcome of a section that had the lock and is through. -/
def Stage.outcome? : Stage → Option Outcome
  | .settled _ outcome => some outcome
  | .left outcome => some outcome
  | _ => none

/-! ## Steps -/

variable {ε : Type}

/-- What is done when it is known what is current under the key. -/
def respond (a : Archive ε) (lock : Nat) (found : Option Artefact) :
    Section → Archive ε × Stage
  | .commit _ _ now =>
    match found with
    | none => (a, .cleared lock none none)
    | some p =>
      if p.hasEnded now then
        match a.expire p.id now with
        | (.error err, a) => (a, .failed lock err)
        | (.ok _, a) => (a, .cleared lock none (some p.id))
      else (a, .cleared lock (some p) none)
  | .expiry candidate now =>
    match found with
    | none => (a, .settled lock (.expired none))
    | some p =>
      if p.id = candidate.id then
        match a.expire candidate.id now with
        | (.error err, a) => (a, .failed lock err)
        | (.ok _, a) => (a, .settled lock (.expired (some candidate.id)))
      else (a, .settled lock (.expired none))

/-- Where a commit is when the payload store has answered. -/
def afterKeeping (lock : Nat) (existing : Option Artefact) (expired : Option ArtefactId) :
    Except StorageError StoredBody → Stage
  | .error err => .settled lock (.committed (.error err) (.error (.storage err)))
  | .ok stored => .kept lock existing expired stored

/-- The artefact of a commit is brought into the ledger. -/
def store (a : Archive ε) (lock : Nat) (existing : Option Artefact) (expired : Option ArtefactId)
    (stored : StoredBody) (envelope : Envelope) (now : Instant) : Archive ε × Stage :=
  let (id, ids) := a.ids.next
  let decision := resolve envelope existing now
  match Archive.commit { a with ids } ⟨.new id envelope stored now, decision.prior, now⟩ with
  | (.error err, a) => (a, .failed lock err)
  | (.ok artefact, a) =>
    (a, .settled lock (.committed (.ok stored) (.ok ⟨artefact, decision, expired⟩)))

end Section

/-- Somebody who does a section. -/
structure Worker where
  work : Section
  stage : Section.Stage

namespace Worker

/-- The lock that a worker has. -/
def holds (w : Worker) : List (LockHandle IdentityKey) :=
  w.stage.lock?.toList.map (fun lock => ⟨w.work.key, lock⟩)

/-- What a worker that had the lock has come to. -/
def done (w : Worker) : List Section.Record :=
  w.stage.outcome?.toList.map (fun outcome => (w.work, outcome))

/-- A worker who has met with a refusal of the ledger. -/
def hasFailed (w : Worker) : Bool :=
  match w.stage with
  | .failed _ _ => true
  | .aborted _ => true
  | _ => false

variable {ε : Type}

/-- The archive after a worker has given its lock back. -/
def leave (w : Worker) (lock : Nat) (a : Archive ε) : Archive ε :=
  { a with locks := (a.locks.unlock ⟨w.work.key, lock⟩).release ⟨w.work.key, lock⟩ }

/-- The next step of a worker. If it asks the payload store to keep a body, the answer is given. -/
def advance (w : Worker) (answer : Except StorageError StoredBody) (a : Archive ε) :
    Archive ε × Section.Stage :=
  match w.stage with
  | .asking =>
    let (handle, locks) := a.locks.handle w.work.key
    match locks.tryLock handle with
    | none => ({ a with locks := locks.release handle }, .refused)
    | some locks => ({ a with locks }, .entered handle.number)
  | .entered lock => (a, .looked lock (a.ledger.currentFor w.work.key))
  | .looked lock found => w.work.respond a lock found
  | .cleared lock existing expired => (a, Section.afterKeeping lock existing expired answer)
  | .kept lock existing expired stored =>
    match w.work with
    | .commit envelope _ now => Section.store a lock existing expired stored envelope now
    | .expiry _ _ => (a, w.stage)
  | .settled lock outcome => (w.leave lock a, .left outcome)
  | .failed lock err => (w.leave lock a, .aborted err)
  | .refused => (a, w.stage)
  | .left _ => (a, w.stage)
  | .aborted _ => (a, w.stage)

/-- What a worker comes to with its next step. -/
def settles (w : Worker) (answer : Except StorageError StoredBody) (a : Archive ε) :
    List Section.Record :=
  match w.stage.outcome? with
  | none => (Worker.mk w.work (w.advance answer a).2).done
  | some _ => []

/-- A worker that has come to something does not come to anything else. -/
theorem done_advance (w : Worker) (answer : Except StorageError StoredBody) (a : Archive ε) :
    (Worker.mk w.work (w.advance answer a).2).done = w.done ++ w.settles answer a := by
  obtain ⟨work, stage⟩ := w
  cases stage <;> rfl

theorem settles_one (w : Worker) (answer : Except StorageError StoredBody) (a : Archive ε) :
    w.settles answer a = [] ∨ ∃ record, w.settles answer a = [record] := by
  unfold settles done
  cases w.stage.outcome? with
  | some _ => exact .inl rfl
  | none =>
    cases (w.advance answer a).2.outcome? with
    | none => exact .inl rfl
    | some outcome => exact .inr ⟨_, rfl⟩

end Worker

/-! ## Runs -/

/-- The archive and everybody who ever came up to it. -/
structure Traffic (ε : Type) where
  archive : Archive ε
  workers : List Worker

/-- What can happen next. -/
inductive Move (ε : Type)
  /-- A commit is called. -/
  | begin (envelope : Envelope) (body : Bytes) (now : Instant)
  /-- A sweep is called. It looks at everything that is current, and each artefact whose window has
  ended is left to a worker of its own; that they wait for each other is not asked for. -/
  | sweep (now : Instant)
  /-- A worker takes its next step. -/
  | advance (worker : Nat) (answer : Except StorageError StoredBody)
  /-- The payload store works, or the stores note something down. -/
  | aside (payloads : PayloadStore) (notes : ε)

namespace Traffic

variable {ε : Type}

/-- The workers of a sweep. -/
def sweepers (a : Archive ε) (now : Instant) : List Worker :=
  (a.ledger.currentArtefacts.filter (fun c => c.hasEnded now)).map
    (fun c => ⟨.expiry c now, .asking⟩)

def move (s : Traffic ε) : Move ε → Traffic ε
  | .begin envelope body now =>
    { s with workers := s.workers ++ [⟨.commit envelope body now, .asking⟩] }
  | .sweep now => { s with workers := s.workers ++ sweepers s.archive now }
  | .advance i answer =>
    match s.workers[i]? with
    | some w =>
      let (archive, stage) := w.advance answer s.archive
      ⟨archive, s.workers.set i { w with stage }⟩
    | none => s
  | .aside payloads notes => { s with archive := { s.archive with payloads, notes } }

def run (s : Traffic ε) (moves : List (Move ε)) : Traffic ε := moves.foldl move s

/-- The section that comes to its outcome with a move. -/
def settles (s : Traffic ε) : Move ε → List Section.Record
  | .begin _ _ _ => []
  | .sweep _ => []
  | .advance i answer =>
    match s.workers[i]? with
    | some w => w.settles answer s.archive
    | none => []
  | .aside _ _ => []

/-- The sections that come to their outcomes in a run, in the order in which they do. -/
def settled (s : Traffic ε) : List (Move ε) → List Section.Record
  | [] => []
  | m :: moves => s.settles m ++ (s.move m).settled moves

/-- Nobody has called yet. -/
def start (a : Archive ε) : Traffic ε := ⟨a, []⟩

theorem run_append (s : Traffic ε) (moves more : List (Move ε)) :
    s.run (moves ++ more) = (s.run moves).run more := List.foldl_append

end Traffic

/-! ## One after another -/

section

variable {ε : Type}

/-- Stores whose payload store gives one answer. -/
def Stores.answering (kept : Except StorageError StoredBody) : Stores ε where
  persist a _ _ := (kept, a)
  commit := Archive.commit

/-- A section that the engine runs without interruption comes to an outcome. -/
def Section.RunsAlone (timeout : Nat) (a : Archive ε) : Section.Record → Archive ε → Prop
  | (.commit envelope body now, .committed kept answer), a' =>
    Engine.commit ⟨.answering kept, timeout⟩ a envelope body now = (answer, a')
  | (.expiry candidate now, .expired id), a' =>
    Engine.withLock a candidate.key (.ok none)
      (fun a => Engine.expireIfCurrent a candidate.key candidate.id now) = (.ok id, a')
  | _, _ => False

/-- Sections that are run one after another lead from an archive to another one. -/
inductive OneByOne (timeout : Nat) (a : Archive ε) : List Section.Record → Archive ε → Prop
  | none : OneByOne timeout a [] a
  | next {records : List Section.Record} {b c : Archive ε} {last : Section.Record}
    (h : OneByOne timeout a records b) (hlast : Section.RunsAlone timeout b last c) :
    OneByOne timeout a (records ++ [last]) c

end

end CauseLists
