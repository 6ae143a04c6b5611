-- Everything that a commit by the engine can do. It may not get its lock, it may fail to clear an
-- artefact that has ended, the payload store may refuse the body, the ledger may refuse the
-- artefact, or it is carried out. Whatever else is said of commits is said by these cases.
import CauseLists.Proofs.Ledger.Effects
import CauseLists.Supersession.Engine

namespace CauseLists

variable {ε : Type}

/-! ## Stores that may refuse -/

/-- What the payload store makes of a body: it refuses it, or keeps it as it should. -/
def Archive.keep (a : Archive ε) (refuses : ε → Envelope → Bytes → Option StorageError)
    (envelope : Envelope) (body : Bytes) : Except StorageError StoredBody × PayloadStore :=
  match refuses a.notes envelope body with
  | some e => (.error e, a.payloads)
  | none => a.payloads.persist envelope body

/-- Stores whose payload store may refuse a body, for any reason and at any time. A body that is
refused changes nothing. -/
def Stores.refusing (refuses : ε → Envelope → Bytes → Option StorageError) : Stores ε where
  persist a envelope body :=
    ((a.keep refuses envelope body).1, { a with payloads := (a.keep refuses envelope body).2 })
  commit := Archive.commit

/-- A store in memory is left as it was by a body that is refused, and keeps any other. -/
theorem Archive.keep_of_memory {a : Archive ε} {blobs : Blobs} (h : a.payloads = .memory blobs)
    (refuses : ε → Envelope → Bytes → Option StorageError) (envelope : Envelope) (body : Bytes) :
    (∃ e, refuses a.notes envelope body = some e ∧
      a.keep refuses envelope body = (.error e, a.payloads)) ∨
    a.keep refuses envelope body = (.ok (blobs.persist envelope.listType body).1,
      .memory (blobs.persist envelope.listType body).2) := by
  unfold keep
  split
  · rename_i e hrefuses
    exact .inl ⟨e, hrefuses, rfl⟩
  · rw [h]
    exact .inr rfl

/-! ## Making room -/

/-- How room is made under a key: what stands there afterwards, what was expired, and the ledger
that comes of it. -/
inductive Clears (l : Ledger) (key : IdentityKey) (now : Instant) :
    Option Artefact → Option ArtefactId → Ledger → Prop
  | free (hnone : l.currentFor key = none) : Clears l key now none none l
  | standing {p : Artefact} (hp : l.currentFor key = some p) (hopen : p.hasEnded now = false) :
    Clears l key now (some p) none l
  | ended {p b : Artefact} {l' : Ledger} (hp : l.currentFor key = some p)
    (hended : p.hasEnded now = true) (hexpire : l.expire p.id now = (.ok b, l')) :
    Clears l key now none (some p.id) l'

theorem clearEnded_cases (a : Archive ε) (key : IdentityKey) (now : Instant) :
    (∃ p err, a.ledger.currentFor key = some p ∧ p.hasEnded now = true ∧
      a.ledger.expire p.id now = (.error err, a.ledger) ∧
      Engine.clearEnded a key now = (.error (.ofLedger err), a)) ∨
    ∃ existing expired l, Clears a.ledger key now existing expired l ∧
      Engine.clearEnded a key now = (.ok (existing, expired), { a with ledger := l }) := by
  unfold Engine.clearEnded
  cases hp : a.ledger.currentFor key with
  | none => exact .inr ⟨none, none, a.ledger, .free hp, rfl⟩
  | some p =>
    cases hended : p.hasEnded now with
    | false => exact .inr ⟨some p, none, a.ledger, .standing hp hended, by simp [hended]⟩
    | true =>
      rcases hexpire : a.ledger.expire p.id now with ⟨err | b, l⟩
      · obtain rfl := Ledger.expire_of_error hexpire
        exact .inl ⟨p, err, rfl, hended, hexpire, by simp [hended, Archive.expire, hexpire]⟩
      · exact .inr ⟨none, some p.id, l, .ended hp hended hexpire,
          by simp [hended, Archive.expire, hexpire]⟩

/-- Making room does what it can do. -/
theorem clearEnded_of_clears {a : Archive ε} {key : IdentityKey} {now : Instant}
    {existing : Option Artefact} {expired : Option ArtefactId} {l : Ledger}
    (h : Clears a.ledger key now existing expired l) :
    Engine.clearEnded a key now = (.ok (existing, expired), { a with ledger := l }) := by
  unfold Engine.clearEnded
  cases h with
  | free hnone => simp [hnone]
  | standing hp hopen => simp [hp, hopen]
  | ended hp hended hexpire => simp [hp, hended, Archive.expire, hexpire]

/-! ## The cases of a commit -/

/-- The change to the ledger that a commit asks for. -/
def Archive.request (a : Archive ε) (envelope : Envelope) (stored : StoredBody)
    (existing : Option Artefact) (now : Instant) : Commit :=
  ⟨.new a.ids.next.1 envelope stored now, (resolve envelope existing now).prior, now⟩

/-- The answer to a commit by the engine, and the archive after it. -/
inductive Commits (refuses : ε → Envelope → Bytes → Option StorageError) (timeout : Nat)
    (a : Archive ε) (envelope : Envelope) (body : Bytes) (now : Instant) :
    Except CommitError Committed → Archive ε → Prop
  | contended (locks : KeyLocks IdentityKey) :
    Commits refuses timeout a envelope body now
      (.error (.conflict envelope.key.text (.lockTimeout timeout))) { a with locks }
  | uncleared {p : Artefact} {err : LedgerError} (locks : KeyLocks IdentityKey)
    (hp : a.ledger.currentFor envelope.key = some p) (hended : p.hasEnded now = true)
    (hexpire : a.ledger.expire p.id now = (.error err, a.ledger)) :
    Commits refuses timeout a envelope body now (.error (.ofLedger err)) { a with locks }
  | unkept {existing : Option Artefact} {expired : Option ArtefactId} {l : Ledger}
    {e : StorageError} {payloads : PayloadStore} (locks : KeyLocks IdentityKey)
    (hclear : Clears a.ledger envelope.key now existing expired l)
    (hkeep : a.keep refuses envelope body = (.error e, payloads)) :
    Commits refuses timeout a envelope body now (.error (.storage e))
      { a with ledger := l, payloads, locks }
  | uncommitted {existing : Option Artefact} {expired : Option ArtefactId} {l : Ledger}
    {stored : StoredBody} {payloads : PayloadStore} {err : LedgerError}
    (locks : KeyLocks IdentityKey)
    (hclear : Clears a.ledger envelope.key now existing expired l)
    (hkeep : a.keep refuses envelope body = (.ok stored, payloads))
    (hcommit : l.commit (a.request envelope stored existing now) = (.error err, l)) :
    Commits refuses timeout a envelope body now (.error (.ofLedger err))
      { a with ledger := l, payloads, ids := a.ids.next.2, locks }
  | committed {existing : Option Artefact} {expired : Option ArtefactId} {l l' : Ledger}
    {stored : StoredBody} {payloads : PayloadStore} {artefact : Artefact}
    (locks : KeyLocks IdentityKey)
    (hclear : Clears a.ledger envelope.key now existing expired l)
    (hkeep : a.keep refuses envelope body = (.ok stored, payloads))
    (hcommit : l.commit (a.request envelope stored existing now) = (.ok artefact, l')) :
    Commits refuses timeout a envelope body now
      (.ok ⟨artefact, resolve envelope existing now, expired⟩)
      { a with ledger := l', payloads, ids := a.ids.next.2, locks }

variable {refuses : ε → Envelope → Bytes → Option StorageError} {timeout : Nat}

/-- The locks have no part in what a commit does to the rest of the archive. -/
theorem Commits.relock {a a' : Archive ε} {held : KeyLocks IdentityKey} {envelope : Envelope}
    {body : Bytes} {now : Instant} {r : Except CommitError Committed}
    (h : Commits refuses timeout { a with locks := held } envelope body now r a')
    (locks : KeyLocks IdentityKey) :
    Commits refuses timeout a envelope body now r { a' with locks } := by
  cases h with
  | contended _ => exact .contended locks
  | uncleared _ hp hended hexpire => exact .uncleared locks hp hended hexpire
  | unkept _ hclear hkeep => exact .unkept locks hclear hkeep
  | uncommitted _ hclear hkeep hcommit => exact .uncommitted locks hclear hkeep hcommit
  | committed _ hclear hkeep hcommit => exact .committed locks hclear hkeep hcommit

theorem commitLocked_commits (a : Archive ε) (envelope : Envelope) (body : Bytes)
    (now : Instant) :
    Commits refuses timeout a envelope body now
      (Engine.commitLocked ⟨.refusing refuses, timeout⟩ a envelope body now).1
      (Engine.commitLocked ⟨.refusing refuses, timeout⟩ a envelope body now).2 := by
  unfold Engine.commitLocked
  rcases clearEnded_cases a envelope.key now with
    ⟨p, err, hp, hended, hexpire, hclear⟩ | ⟨existing, expired, l, hclears, hclear⟩
  · rw [hclear]
    exact .uncleared a.locks hp hended hexpire
  · rw [hclear]
    dsimp only [Stores.refusing]
    cases hkeep : a.keep refuses envelope body with
    | mk kept payloads =>
      -- Keeping the body reads the payload store alone, which the expiry has not touched.
      have hsame : ({ a with ledger := l } : Archive ε).keep refuses envelope body =
          (kept, payloads) := hkeep
      rw [hsame]
      cases kept with
      | error e => exact .unkept a.locks hclears hkeep
      | ok stored =>
        dsimp only
        rcases hcommit : l.commit (a.request envelope stored existing now) with
          ⟨err | artefact, l'⟩
        · obtain rfl := Ledger.commit_of_error hcommit
          have hrefused : Archive.commit
              { a with ledger := l', payloads, ids := a.ids.next.2 }
              (a.request envelope stored existing now) =
              (.error err, { a with ledger := l', payloads, ids := a.ids.next.2 }) := by
            simp [Archive.commit, hcommit]
          simp only [Archive.request] at hrefused
          rw [hrefused]
          exact .uncommitted a.locks hclears hkeep hcommit
        · have hdone : Archive.commit
              { a with ledger := l, payloads, ids := a.ids.next.2 }
              (a.request envelope stored existing now) =
              (.ok artefact, { a with ledger := l', payloads, ids := a.ids.next.2 }) := by
            simp [Archive.commit, hcommit]
          simp only [Archive.request] at hdone
          rw [hdone]
          exact .committed a.locks hclears hkeep hcommit

/-- A commit ends when its body is refused. -/
theorem commitLocked_of_refused {e : Engine ε} {a a' : Archive ε} {envelope : Envelope}
    {body : Bytes} {now : Instant} {existing : Option Artefact} {expired : Option ArtefactId}
    {l : Ledger} {err : StorageError} (hclear : Clears a.ledger envelope.key now existing expired l)
    (hpersist : e.stores.persist { a with ledger := l } envelope body = (.error err, a')) :
    e.commitLocked a envelope body now = (.error (.storage err), a') := by
  simp [Engine.commitLocked, clearEnded_of_clears hclear, hpersist]

/-- A commit whose body is kept ends as the commit to the ledger does. -/
theorem commitLocked_of_kept {e : Engine ε} {a a' : Archive ε} {envelope : Envelope} {body : Bytes}
    {now : Instant} {existing : Option Artefact} {expired : Option ArtefactId} {l l' : Ledger}
    {stored : StoredBody} {artefact : Artefact} (hstores : e.stores.commit = Archive.commit)
    (hclear : Clears a.ledger envelope.key now existing expired l)
    (hpersist : e.stores.persist { a with ledger := l } envelope body = (.ok stored, a'))
    (hcommit : a'.ledger.commit (a'.request envelope stored existing now) = (.ok artefact, l')) :
    e.commitLocked a envelope body now = (.ok ⟨artefact, resolve envelope existing now, expired⟩,
      { a' with ids := a'.ids.next.2, ledger := l' }) := by
  unfold Archive.request at hcommit
  simp [Engine.commitLocked, clearEnded_of_clears hclear, hpersist, hstores, Archive.commit,
    hcommit]

/-- Work under a lock is not done at all, or done with the lock held. The archive around it keeps
everything but its locks. -/
theorem withLock_cases {α : Type} (a : Archive ε) (key : IdentityKey) (timedOut : α)
    (act : Archive ε → α × Archive ε) :
    (∃ locks, Engine.withLock a key timedOut act = (timedOut, { a with locks })) ∨
    ∃ held locks, Engine.withLock a key timedOut act =
      ((act { a with locks := held }).1, { (act { a with locks := held }).2 with locks }) := by
  unfold Engine.withLock
  obtain ⟨handle, given⟩ := a.locks.handle key
  dsimp only
  cases given.tryLock handle with
  | none => exact .inl ⟨given.release handle, rfl⟩
  | some held => exact .inr ⟨held, _, rfl⟩

/-- A commit by the engine comes out in one of its cases. -/
theorem commit_commits (a : Archive ε) (envelope : Envelope) (body : Bytes) (now : Instant) :
    Commits refuses timeout a envelope body now
      (Engine.commit ⟨.refusing refuses, timeout⟩ a envelope body now).1
      (Engine.commit ⟨.refusing refuses, timeout⟩ a envelope body now).2 := by
  unfold Engine.commit
  rcases withLock_cases a envelope.key
    (.error (.conflict envelope.key.text (.lockTimeout timeout)))
    (fun a => Engine.commitLocked ⟨.refusing refuses, timeout⟩ a envelope body now) with
    ⟨locks, heq⟩ | ⟨held, locks, heq⟩
  · dsimp only at heq ⊢
    rw [heq]
    exact .contended locks
  · dsimp only at heq ⊢
    rw [heq]
    exact (commitLocked_commits { a with locks := held } envelope body now).relock locks

theorem commits_of_eq {a a' : Archive ε} {envelope : Envelope} {body : Bytes} {now : Instant}
    {r : Except CommitError Committed}
    (h : Engine.commit ⟨.refusing refuses, timeout⟩ a envelope body now = (r, a')) :
    Commits refuses timeout a envelope body now r a' := by
  have hcommits : Commits refuses timeout a envelope body now _ _ :=
    commit_commits a envelope body now
  rwa [h] at hcommits

/-! ## What comes into the ledger -/

/-- Making room brings in no artefact. -/
theorem Clears.record {l l' : Ledger} {key : IdentityKey} {now : Instant}
    {existing : Option Artefact} {expired : Option ArtefactId}
    (hclear : Clears l key now existing expired l') {id : ArtefactId} {a : Artefact}
    (ha : l'.get? id = some a) : ∃ b, l.get? id = some b ∧ b.SameRecord a := by
  cases hclear with
  | free _ => exact ⟨a, ha, .refl a⟩
  | standing _ _ => exact ⟨a, ha, .refl a⟩
  | ended _ _ hexpire => exact Ledger.record_of_expire hexpire ha

/-- A commit brings in the artefact that it answers with, and nothing else. -/
theorem Commits.record {a a' : Archive ε} {envelope : Envelope} {body : Bytes} {now : Instant}
    {r : Except CommitError Committed} (h : Commits refuses timeout a envelope body now r a')
    {id : ArtefactId} {x : Artefact} (hx : a'.ledger.get? id = some x) :
    (∃ b, a.ledger.get? id = some b ∧ b.SameRecord x) ∨ ∃ c, r = .ok c ∧ c.artefact = x := by
  cases h with
  | contended _ => exact .inl ⟨x, hx, .refl x⟩
  | uncleared _ _ _ _ => exact .inl ⟨x, hx, .refl x⟩
  | unkept _ hclear _ => exact .inl (hclear.record hx)
  | uncommitted _ hclear _ _ => exact .inl (hclear.record hx)
  | committed _ hclear _ hcommit =>
    rcases Ledger.record_of_commit hcommit hx with ⟨-, rfl⟩ | ⟨b, hb, hsame⟩
    · exact .inr ⟨_, rfl, rfl⟩
    · obtain ⟨c, hc, hsame'⟩ := hclear.record hb
      exact .inl ⟨c, hc, hsame'.trans hsame⟩

/-- The artefact of a commit has the envelope that was committed. -/
theorem Commits.envelope {a a' : Archive ε} {envelope : Envelope} {body : Bytes} {now : Instant}
    {c : Committed} (h : Commits refuses timeout a envelope body now (.ok c) a') :
    c.artefact.envelope = envelope := by
  cases h with
  | committed _ _ _ hcommit => exact (Ledger.commit_artefact hcommit).2.1

/-! ## Identifiers -/

/-- The identifiers that were drawn so far are different from each other. -/
def IdSupply.Distinct (s : IdSupply) : Prop :=
  ∀ i j, i < j → j < s.drawn → s.draw i ≠ s.draw j

/-- Drawing goes on, so identifiers that are different later are different now. -/
def IdSupply.Continues (s s' : IdSupply) : Prop := s'.draw = s.draw ∧ s.drawn ≤ s'.drawn

theorem IdSupply.Continues.refl (s : IdSupply) : s.Continues s := ⟨rfl, Nat.le_refl _⟩

theorem IdSupply.continues_next (s : IdSupply) : s.Continues s.next.2 := ⟨rfl, Nat.le_succ _⟩

theorem IdSupply.Continues.trans {s s' s'' : IdSupply} (h : s.Continues s')
    (h' : s'.Continues s'') : s.Continues s'' :=
  ⟨h'.1.trans h.1, Nat.le_trans h.2 h'.2⟩

theorem IdSupply.Continues.distinct {s s' : IdSupply} (h : s.Continues s') (hids : s'.Distinct) :
    s.Distinct := by
  intro i j hij hj
  rw [← h.1]
  exact hids i j hij (Nat.lt_of_lt_of_le hj h.2)

theorem Commits.ids {a a' : Archive ε} {envelope : Envelope} {body : Bytes} {now : Instant}
    {r : Except CommitError Committed} (h : Commits refuses timeout a envelope body now r a') :
    a.ids.Continues a'.ids := by
  cases h with
  | contended _ => exact .refl a.ids
  | uncleared _ _ _ _ => exact .refl a.ids
  | unkept _ _ _ => exact .refl a.ids
  | uncommitted _ _ _ _ => exact a.ids.continues_next
  | committed _ _ _ _ => exact a.ids.continues_next

/-! ## Coherent archives -/

/-- In a coherent ledger room can always be made. -/
theorem Ledger.Coherent.clears {l : Ledger} (h : l.Coherent) (key : IdentityKey) (now : Instant) :
    ∃ existing expired l', Clears l key now existing expired l' := by
  cases hp : l.currentFor key with
  | none => exact ⟨none, none, l, .free hp⟩
  | some p =>
    cases hended : p.hasEnded now with
    | false => exact ⟨some p, none, l, .standing hp hended⟩
    | true =>
      obtain ⟨-, hget, -, hstate⟩ := h.currentFor_eq_some hp
      obtain ⟨b, l', hexpire⟩ := Ledger.expire_of_current hget hstate hended
      exact ⟨none, some p.id, l', .ended hp hended hexpire⟩

/-- Making room keeps the ledger coherent, and what stands afterwards is what the decision
names. -/
theorem Clears.coherent {l l' : Ledger} (h : l.Coherent) {envelope : Envelope} {now : Instant}
    {existing : Option Artefact} {expired : Option ArtefactId}
    (hclear : Clears l envelope.key now existing expired l') :
    l'.Coherent ∧ Table.get? envelope.key l'.current = (resolve envelope existing now).prior := by
  cases hclear with
  | free hnone => exact ⟨h, h.currentFor_eq_none hnone⟩
  | standing hp hopen =>
    obtain ⟨hindex, -, hkey, hstate⟩ := h.currentFor_eq_some hp
    refine ⟨h, hindex.trans ?_⟩
    simp [resolve, Artefact.isCurrent, hstate, hopen, hkey, Decision.prior]
  | @ended p b _ hp hended hexpire =>
    obtain ⟨-, hget, hkey, -⟩ := h.currentFor_eq_some hp
    refine ⟨Ledger.coherent_expire h hexpire, ?_⟩
    obtain ⟨a, hid, ha, -, rfl⟩ := h.expire_eq_ok hexpire
    obtain rfl : a = p := by
      rw [hid, hget] at ha
      exact (Option.some.inj ha).symm
    show Table.get? envelope.key (Table.erase a.key l.current) = none
    rw [hkey, Table.get?_erase_self]

/-- Making room has to do with its key only. -/
theorem Clears.changesUnder {l l' : Ledger} (h : l.Coherent) {key : IdentityKey} {now : Instant}
    {existing : Option Artefact} {expired : Option ArtefactId}
    (hclear : Clears l key now existing expired l') : l.ChangesUnder key l' := by
  cases hclear with
  | free _ => exact .refl key l
  | standing _ _ => exact .refl key l
  | ended hp _ hexpire =>
    obtain ⟨-, hget, rfl, -⟩ := h.currentFor_eq_some hp
    exact Ledger.changesUnder_expire h hget hexpire

/-- An artefact that is found current although its display window has ended is expired. -/
theorem Clears.of_ended {l l' : Ledger} {key : IdentityKey} {now : Instant}
    {existing : Option Artefact} {expired : Option ArtefactId} {p : Artefact}
    (hclear : Clears l key now existing expired l') (hp : l.currentFor key = some p)
    (hended : p.hasEnded now = true) : ∃ b, l.expire p.id now = (.ok b, l') := by
  cases hclear with
  | free hnone =>
    rw [hnone] at hp
    cases hp
  | standing hp' hopen =>
    obtain rfl := Option.some.inj (hp'.symm.trans hp)
    rw [hopen] at hended
    cases hended
  | @ended p' b _ hp' _ hexpire =>
    obtain rfl := Option.some.inj (hp'.symm.trans hp)
    exact ⟨b, hexpire⟩

/-- An archive whose ledger is coherent and holds only artefacts whose identifiers were drawn for
them. -/
structure Archive.Coherent (a : Archive ε) : Prop where
  ledger : a.ledger.Coherent
  drawn : ∀ {id artefact}, a.ledger.get? id = some artefact → ∃ i < a.ids.drawn, a.ids.draw i = id

theorem Archive.coherent_start (payloads : PayloadStore) (draw : Nat → ArtefactId) (notes : ε) :
    (Archive.start payloads draw notes).Coherent where
  ledger := Ledger.coherent_empty
  drawn := by simp [Archive.start, Ledger.empty, Ledger.get?]

/-- Whatever stands in the ledger after room is made was drawn before. -/
theorem Archive.Coherent.drawn_of_clears {a : Archive ε} (ha : a.Coherent) {key : IdentityKey}
    {now : Instant} {existing : Option Artefact} {expired : Option ArtefactId} {l : Ledger}
    (hclear : Clears a.ledger key now existing expired l) {id : ArtefactId} {x : Artefact}
    (hx : l.get? id = some x) : ∃ i < a.ids.drawn, a.ids.draw i = id := by
  obtain ⟨b, hb, -⟩ := hclear.record hx
  exact ha.drawn hb

/-- The next identifier is new to the ledger. -/
theorem Archive.Coherent.next_isNew {a : Archive ε} (ha : a.Coherent)
    (hids : a.ids.next.2.Distinct) : a.ledger.get? a.ids.next.1 = none := by
  cases hget : a.ledger.get? a.ids.next.1 with
  | none => rfl
  | some x =>
    obtain ⟨i, hi, hdraw⟩ := ha.drawn hget
    exact absurd hdraw (hids i a.ids.drawn hi (Nat.lt_succ_self _))

/-- It is so after room is made as well. -/
theorem Archive.Coherent.fresh {a : Archive ε} (ha : a.Coherent) (hids : a.ids.next.2.Distinct)
    {key : IdentityKey} {now : Instant} {existing : Option Artefact} {expired : Option ArtefactId}
    {l : Ledger} (hclear : Clears a.ledger key now existing expired l) :
    l.get? a.ids.next.1 = none := by
  cases hget : l.get? a.ids.next.1 with
  | none => rfl
  | some x =>
    obtain ⟨b, hb, -⟩ := hclear.record hget
    rw [ha.next_isNew hids] at hb
    cases hb

/-- What was drawn before a commit, and its own identifier, is all that stands in the ledger after
it. -/
theorem Archive.Coherent.drawn_of_commit {a : Archive ε} (ha : a.Coherent) {key : IdentityKey}
    {now : Instant} {existing : Option Artefact} {expired : Option ArtefactId} {l l' : Ledger}
    (hclear : Clears a.ledger key now existing expired l) {c : Commit} {artefact : Artefact}
    (hid : c.artefact.id = a.ids.next.1) (hcommit : l.commit c = (.ok artefact, l'))
    {id : ArtefactId} {x : Artefact} (hx : l'.get? id = some x) :
    ∃ i < a.ids.next.2.drawn, a.ids.next.2.draw i = id := by
  rcases Ledger.record_of_commit hcommit hx with ⟨hnew, -⟩ | ⟨y, hy, -⟩
  · exact ⟨a.ids.drawn, Nat.lt_succ_self _, (hnew.trans hid).symm⟩
  · obtain ⟨i, hi, hdraw⟩ := ha.drawn_of_clears hclear hy
    exact ⟨i, Nat.lt_succ_of_lt hi, hdraw⟩

/-- A commit keeps the archive coherent as long as the identifiers that are drawn stay different
from each other. -/
theorem Commits.coherent {a a' : Archive ε} (ha : a.Coherent) {envelope : Envelope} {body : Bytes}
    {now : Instant} {r : Except CommitError Committed}
    (h : Commits refuses timeout a envelope body now r a') (hids : a'.ids.Distinct) :
    a'.Coherent := by
  cases h with
  | contended _ => exact ⟨ha.ledger, ha.drawn⟩
  | uncleared _ _ _ _ => exact ⟨ha.ledger, ha.drawn⟩
  | unkept _ hclear _ => exact ⟨(hclear.coherent ha.ledger).1, ha.drawn_of_clears hclear⟩
  | uncommitted _ hclear _ _ =>
    refine ⟨(hclear.coherent ha.ledger).1, ?_⟩
    intro id x hx
    obtain ⟨i, hi, hdraw⟩ := ha.drawn_of_clears hclear hx
    exact ⟨i, Nat.lt_succ_of_lt hi, hdraw⟩
  | committed _ hclear _ hcommit =>
    exact ⟨Ledger.coherent_commit (hclear.coherent ha.ledger).1 hcommit (ha.fresh hids hclear) rfl
      rfl rfl, ha.drawn_of_commit hclear rfl hcommit⟩

/-! ## Sound archives -/

/-- An archive in memory whose ledger is coherent and holds only artefacts whose identifiers were
drawn for them. -/
structure Archive.Sound (a : Archive ε) : Prop where
  coherent : a.ledger.Coherent
  memory : ∃ blobs, a.payloads = .memory blobs
  drawn : ∀ {id artefact}, a.ledger.get? id = some artefact → ∃ i < a.ids.drawn, a.ids.draw i = id

theorem Archive.sound_start (draw : Nat → ArtefactId) (notes : ε) :
    (Archive.start .empty draw notes).Sound where
  coherent := Ledger.coherent_empty
  memory := ⟨[], rfl⟩
  drawn := by simp [Archive.start, Ledger.empty, Ledger.get?]

/-- Locks and notes have no part in it. -/
theorem Archive.Sound.aside {a : Archive ε} (h : a.Sound) (locks : KeyLocks IdentityKey)
    (notes : ε) : ({ a with locks, notes } : Archive ε).Sound :=
  ⟨h.coherent, h.memory, h.drawn⟩

/-- A body that a store in memory does not keep leaves it as it was. -/
theorem Archive.Sound.keep_error {a : Archive ε} (h : a.Sound) {envelope : Envelope} {body : Bytes}
    {e : StorageError} {payloads : PayloadStore}
    (hkeep : a.keep refuses envelope body = (.error e, payloads)) :
    refuses a.notes envelope body = some e ∧ payloads = a.payloads := by
  obtain ⟨blobs, hblobs⟩ := h.memory
  rcases Archive.keep_of_memory hblobs refuses envelope body with ⟨e', hrefuses, heq⟩ | heq
  · obtain ⟨herr, rfl⟩ := Prod.mk.inj (heq.symm.trans hkeep)
    obtain rfl := Except.error.inj herr
    exact ⟨hrefuses, rfl⟩
  · cases (Prod.mk.inj (heq.symm.trans hkeep)).1

/-- A body that a store in memory keeps stays in memory. -/
theorem Archive.Sound.keep_ok {a : Archive ε} (h : a.Sound) {envelope : Envelope} {body : Bytes}
    {stored : StoredBody} {payloads : PayloadStore}
    (hkeep : a.keep refuses envelope body = (.ok stored, payloads)) :
    ∃ blobs, payloads = .memory blobs := by
  obtain ⟨blobs, hblobs⟩ := h.memory
  rcases Archive.keep_of_memory hblobs refuses envelope body with ⟨e, -, heq⟩ | heq
  · cases (Prod.mk.inj (heq.symm.trans hkeep)).1
  · exact ⟨_, (Prod.mk.inj (heq.symm.trans hkeep)).2.symm⟩

/-- In a sound archive a commit fails for two reasons only: somebody else has the lock, or the
body is refused. -/
theorem Commits.error_cases {a a' : Archive ε} (ha : a.Sound) {envelope : Envelope} {body : Bytes}
    {now : Instant} {err : CommitError}
    (h : Commits refuses timeout a envelope body now (.error err) a') :
    (err = .conflict envelope.key.text (.lockTimeout timeout) ∧ ∃ locks, a' = { a with locks }) ∨
    ∃ e existing expired l locks, err = .storage e ∧ refuses a.notes envelope body = some e ∧
      Clears a.ledger envelope.key now existing expired l ∧
      a' = { a with ledger := l, locks } := by
  cases h with
  | contended locks => exact .inl ⟨rfl, locks, rfl⟩
  | @uncleared p err locks hp hended hexpire =>
    obtain ⟨-, hget, -, hstate⟩ := ha.coherent.currentFor_eq_some hp
    obtain ⟨b, l, hdone⟩ := Ledger.expire_of_current hget hstate hended
    rw [hexpire] at hdone
    cases hdone
  | unkept locks hclear hkeep =>
    obtain ⟨hrefuses, rfl⟩ := ha.keep_error hkeep
    exact .inr ⟨_, _, _, _, locks, rfl, hrefuses, hclear, rfl⟩
  | @uncommitted existing _ l stored _ _ locks hclear hkeep hcommit =>
    obtain ⟨hcoherent, hindex⟩ := hclear.coherent ha.coherent
    obtain ⟨b, l', hdone⟩ :=
      Ledger.commit_of_indexed (c := a.request envelope stored existing now) hcoherent hindex
    rw [hcommit] at hdone
    cases hdone

/-- A commit keeps the archive sound as long as the identifiers that are drawn stay different from
each other. -/
theorem Commits.sound {a a' : Archive ε} (ha : a.Sound) {envelope : Envelope} {body : Bytes}
    {now : Instant} {r : Except CommitError Committed}
    (h : Commits refuses timeout a envelope body now r a') (hids : a'.ids.Distinct) :
    a'.Sound := by
  have hcoherent := h.coherent ⟨ha.coherent, ha.drawn⟩ hids
  refine ⟨hcoherent.ledger, ?_, hcoherent.drawn⟩
  cases h with
  | contended _ => exact ha.memory
  | uncleared _ _ _ _ => exact ha.memory
  | unkept _ _ hkeep => exact (ha.keep_error hkeep).2 ▸ ha.memory
  | uncommitted _ _ hkeep _ => exact ha.keep_ok hkeep
  | committed _ _ hkeep _ => exact ha.keep_ok hkeep

end CauseLists
