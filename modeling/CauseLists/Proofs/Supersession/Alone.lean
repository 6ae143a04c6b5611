-- Sections that run alone. In a coherent archive in which nobody holds a lock a commit makes room
-- and brings its artefact in, or stops where the payload store stops it, and an expiry takes its
-- candidate out if it is still there. Each leaves such an archive behind, changed only under its
-- key.
import CauseLists.Proofs.Ledger.Retiring
import CauseLists.Proofs.Supersession.Decisions
import CauseLists.Proofs.Supersession.Traffic

namespace CauseLists

/-! ## Room -/

namespace Ledger

/-- What stands under a key after room is made, and what is expired for it. -/
def room (l : Ledger) (key : IdentityKey) (now : Instant) :
    Option Artefact × Option ArtefactId :=
  match l.currentFor key with
  | none => (none, none)
  | some p => if p.hasEnded now then (none, some p.id) else (some p, none)

/-- The expiry by which room is made. -/
def retirements (key : IdentityKey) (now : Instant) (expired : Option ArtefactId) :
    List Retirement :=
  expired.toList.map (fun id => ⟨id, key, now⟩)

variable {l : Ledger} {key : IdentityKey} {now : Instant}

/-- An artefact that is current and has ended is retired by an expiry. -/
theorem Coherent.expire_current (h : l.Coherent) {p : Artefact} (hp : l.currentFor key = some p)
    (hended : p.hasEnded now = true) :
    ∃ b, l.expire p.id now = (.ok b, l.retire ⟨p.id, key, now⟩) := by
  obtain ⟨-, hget, rfl, hstate⟩ := h.currentFor_eq_some hp
  obtain ⟨b, l', hexpire⟩ := expire_of_current hget hstate hended
  exact ⟨b, h.retire_of_expire hget hexpire ▸ hexpire⟩

theorem Coherent.clears_room (h : l.Coherent) {existing : Option Artefact}
    {expired : Option ArtefactId} (hroom : l.room key now = (existing, expired)) :
    Clears l key now existing expired (l.retireAll (retirements key now expired)) := by
  unfold room at hroom
  cases hp : l.currentFor key with
  | none =>
    rw [hp] at hroom
    obtain ⟨rfl, rfl⟩ := Prod.mk.inj hroom
    exact .free hp
  | some p =>
    rw [hp] at hroom
    dsimp only at hroom
    cases hended : p.hasEnded now with
    | false =>
      rw [hended] at hroom
      obtain ⟨rfl, rfl⟩ := Prod.mk.inj hroom
      exact .standing hp hended
    | true =>
      rw [hended] at hroom
      obtain ⟨rfl, rfl⟩ := Prod.mk.inj hroom
      obtain ⟨b, hexpire⟩ := h.expire_current hp hended
      exact .ended hp hended hexpire

/-- Room depends on what is current under the key, and on nothing else. -/
theorem room_congr {l' : Ledger} (h : l'.currentFor key = l.currentFor key) :
    l'.room key now = l.room key now := by
  rw [room, h, room]

end Ledger

/-! ## Quiet archives -/

variable {ε : Type}

/-- A coherent archive in which nobody holds a lock. -/
structure Archive.Quiet (a : Archive ε) : Prop extends Archive.Coherent a where
  free : a.locks.HeldBy []

theorem Archive.quiet_start (payloads : PayloadStore) (draw : Nat → ArtefactId) (notes : ε) :
    (Archive.start payloads draw notes).Quiet :=
  ⟨Archive.coherent_start payloads draw notes, KeyLocks.heldBy_empty⟩

/-- Work under a lock that leaves the locks alone gives the lock back. -/
theorem Engine.withLock_of_quiet {α : Type} {a : Archive ε} (hfree : a.locks.HeldBy [])
    (key : IdentityKey) (timedOut : α) (act : Archive ε → α × Archive ε) {result : α}
    (a' : Archive ε)
    (hact : ∀ held, act { a with locks := held } = (result, { a' with locks := held })) :
    ∃ locks, withLock a key timedOut act = (result, { a' with locks }) ∧ locks.HeldBy [] := by
  obtain ⟨held, htry, hheld⟩ := hfree.admit (show key ∉ [].map LockHandle.key from List.not_mem_nil)
  refine ⟨_, ?_, hheld.leave⟩
  unfold withLock
  simp only [htry, hact]

/-- A commit in a quiet archive does what is done under its lock. -/
theorem Engine.commit_of_quiet {a : Archive ε} (hfree : a.locks.HeldBy []) {e : Engine ε}
    {envelope : Envelope} {body : Bytes} {now : Instant} {result : Except CommitError Committed}
    (a' : Archive ε)
    (hlocked : ∀ held, e.commitLocked { a with locks := held } envelope body now =
      (result, { a' with locks := held })) :
    ∃ locks, e.commit a envelope body now = (result, { a' with locks }) ∧ locks.HeldBy [] :=
  withLock_of_quiet hfree envelope.key _ (fun a => e.commitLocked a envelope body now) a' hlocked

/-- So does an expiry. -/
theorem Engine.expiry_of_quiet {a : Archive ε} (hfree : a.locks.HeldBy []) {candidate : Artefact}
    {now : Instant} {result : Except CommitError (Option ArtefactId)} (a' : Archive ε)
    (hact : ∀ held, expireIfCurrent { a with locks := held } candidate.key candidate.id now =
      (result, { a' with locks := held })) :
    ∃ locks, withLock a candidate.key (.ok none)
        (fun a => expireIfCurrent a candidate.key candidate.id now) = (result, { a' with locks }) ∧
      locks.HeldBy [] :=
  withLock_of_quiet hfree candidate.key _ _ a' hact

variable (timeout : Nat)

/-- A commit that runs alone and whose body is refused makes room and does no more. -/
theorem Archive.Quiet.commit_refused {S : Archive ε} (h : S.Quiet) {envelope : Envelope}
    (body : Bytes) {now : Instant} {existing : Option Artefact} {expired : Option ArtefactId}
    (hroom : S.ledger.room envelope.key now = (existing, expired)) (err : StorageError) :
    ∃ S', Section.RunsAlone timeout S
        (.commit envelope body now, .committed (.error err) (.error (.storage err))) S' ∧
      S'.Quiet ∧ S.ledger.ChangesUnder envelope.key S'.ledger ∧ S'.ids = S.ids ∧
      S'.ledger = S.ledger.retireAll (Ledger.retirements envelope.key now expired) := by
  have hclear := h.ledger.clears_room hroom
  generalize S.ledger.retireAll (Ledger.retirements envelope.key now expired) = l at hclear ⊢
  have hlocked : ∀ held, Engine.commitLocked ⟨.answering (.error err), timeout⟩
      { S with locks := held } envelope body now =
      (.error (.storage err), { S with locks := held, ledger := l }) :=
    fun held => commitLocked_of_refused (a := { S with locks := held }) hclear rfl
  obtain ⟨locks, hrun, hfree⟩ := Engine.commit_of_quiet h.free { S with ledger := l } hlocked
  refine ⟨_, hrun, ⟨⟨(hclear.coherent h.ledger).1, ?_⟩, hfree⟩, hclear.changesUnder h.ledger, rfl,
    rfl⟩
  intro id x hx
  exact h.toCoherent.drawn_of_clears hclear hx

/-- A commit that runs alone and whose body is kept makes room and brings its artefact in. -/
theorem Archive.Quiet.commit_kept {S : Archive ε} (h : S.Quiet) (hids : S.ids.next.2.Distinct)
    {envelope : Envelope} (body : Bytes) {now : Instant} {existing : Option Artefact}
    {expired : Option ArtefactId} (hroom : S.ledger.room envelope.key now = (existing, expired))
    (stored : StoredBody) :
    ∃ artefact l' S',
      (S.ledger.retireAll (Ledger.retirements envelope.key now expired)).commit
        (S.request envelope stored existing now) = (.ok artefact, l') ∧
      Section.RunsAlone timeout S (.commit envelope body now, .committed (.ok stored)
        (.ok ⟨artefact, resolve envelope existing now, expired⟩)) S' ∧
      S'.Quiet ∧ S.ledger.ChangesUnder envelope.key S'.ledger ∧ S'.ids = S.ids.next.2 ∧
      S'.ledger = l' := by
  have hclear := h.ledger.clears_room hroom
  generalize S.ledger.retireAll (Ledger.retirements envelope.key now expired) = l at hclear ⊢
  obtain ⟨hcoherent, hindex⟩ := hclear.coherent h.ledger
  obtain ⟨artefact, l', hcommit⟩ :=
    Ledger.commit_of_indexed (c := S.request envelope stored existing now) hcoherent hindex
  have hnew := h.toCoherent.fresh hids hclear
  have hlocked : ∀ held, Engine.commitLocked ⟨.answering (.ok stored), timeout⟩
      { S with locks := held } envelope body now =
      (.ok ⟨artefact, resolve envelope existing now, expired⟩,
        { S with locks := held, ids := S.ids.next.2, ledger := l' }) := by
    intro held
    have hpersist : (Stores.answering (ε := ε) (.ok stored)).persist
        { S with locks := held, ledger := l } envelope body =
        (.ok stored, { S with locks := held, ledger := l }) := rfl
    exact commitLocked_of_kept (e := ⟨.answering (.ok stored), timeout⟩)
      (a := { S with locks := held }) rfl hclear hpersist hcommit
  obtain ⟨locks, hrun, hfree⟩ := Engine.commit_of_quiet h.free
    { S with ids := S.ids.next.2, ledger := l' } hlocked
  refine ⟨artefact, l', _, hcommit, hrun, ⟨⟨?_, ?_⟩, hfree⟩, ?_, rfl, rfl⟩
  · exact Ledger.coherent_commit hcoherent hcommit hnew rfl rfl rfl
  · intro id x hx
    exact h.toCoherent.drawn_of_commit hclear rfl hcommit hx
  · exact (hclear.changesUnder h.ledger).trans (Ledger.changesUnder_commit hcoherent hcommit hnew)

/-- An expiry that runs alone does nothing if its candidate is not current. -/
theorem Archive.Quiet.expiry_passed {S : Archive ε} (h : S.Quiet) {candidate : Artefact}
    (now : Instant)
    (hgone : ∀ p, S.ledger.currentFor candidate.key = some p → p.id ≠ candidate.id) :
    ∃ S', Section.RunsAlone timeout S (.expiry candidate now, .expired none) S' ∧ S'.Quiet ∧
      S'.ids = S.ids ∧ S'.ledger = S.ledger := by
  have hact : ∀ held, Engine.expireIfCurrent { S with locks := held } candidate.key candidate.id
      now = (.ok none, { S with locks := held }) := by
    intro held
    unfold Engine.expireIfCurrent
    cases hp : S.ledger.currentFor candidate.key with
    | none => rfl
    | some p => simp [hgone p hp]
  obtain ⟨locks, hrun, hfree⟩ := Engine.expiry_of_quiet h.free S hact
  exact ⟨_, hrun, ⟨⟨h.ledger, h.drawn⟩, hfree⟩, rfl, rfl⟩

/-- An expiry that runs alone retires its candidate if that is current and has ended. -/
theorem Archive.Quiet.expiry_done {S : Archive ε} (h : S.Quiet) {candidate p : Artefact}
    {now : Instant} (hp : S.ledger.currentFor candidate.key = some p) (hid : p.id = candidate.id)
    (hended : p.hasEnded now = true) :
    ∃ b l' S', S.ledger.expire candidate.id now = (.ok b, l') ∧
      Section.RunsAlone timeout S (.expiry candidate now, .expired (some candidate.id)) S' ∧
      S'.Quiet ∧ S.ledger.ChangesUnder candidate.key S'.ledger ∧ S'.ids = S.ids ∧
      S'.ledger = l' := by
  obtain ⟨-, hget, hkey, hstate⟩ := h.ledger.currentFor_eq_some hp
  obtain ⟨b, l', hexpire⟩ := Ledger.expire_of_current hget hstate hended
  have hchange := Ledger.changesUnder_expire h.ledger hget hexpire
  rw [hkey] at hchange
  have hcoherent := Ledger.coherent_expire h.ledger hexpire
  rw [hid] at hexpire
  have hact : ∀ held, Engine.expireIfCurrent { S with locks := held } candidate.key candidate.id
      now = (.ok (some candidate.id), { S with locks := held, ledger := l' }) := by
    intro held
    simp [Engine.expireIfCurrent, hp, hid, Archive.expire, hexpire]
  obtain ⟨locks, hrun, hfree⟩ := Engine.expiry_of_quiet h.free { S with ledger := l' } hact
  refine ⟨b, l', _, hexpire, hrun, ⟨⟨hcoherent, ?_⟩, hfree⟩, hchange, rfl, rfl⟩
  intro id x hx
  obtain ⟨y, hy, -⟩ := Ledger.record_of_expire hexpire hx
  exact h.drawn hy

end CauseLists
