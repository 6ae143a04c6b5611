-- What a commit by the engine decides. In every archive that commits and sweeps lead to, a body
-- that is kept is committed: the artefact that is current under the key is superseded if its
-- display window is open, expired if the window has ended, and nothing else changes.
import CauseLists.Proofs.Ledger.Runs
import CauseLists.Proofs.Supersession.Locks
import CauseLists.Proofs.Supersession.Sweeps

namespace CauseLists

/-! ## What is kept -/

theorem BlobFolder.persist_stored {f f' : BlobFolder} {t : ListType} {body : Bytes}
    {stored : StoredBody} (h : f.persist t body = (.ok stored, f')) :
    stored.digest = .ofBody body ∧ stored.size = body.length := by
  unfold BlobFolder.persist BlobFolder.keep at h
  dsimp only at h
  split at h
  · cases (Prod.mk.inj h).1
  · obtain rfl := Except.ok.inj (Prod.mk.inj h).1
    exact ⟨rfl, rfl⟩

/-- Whatever kind of store keeps a body gives it its digest and its length. -/
theorem PayloadStore.persist_stored {s s' : PayloadStore} {envelope : Envelope} {body : Bytes}
    {stored : StoredBody} (h : s.persist envelope body = (.ok stored, s')) :
    stored.digest = .ofBody body ∧ stored.size = body.length := by
  cases s with
  | memory blobs =>
    obtain ⟨hstored, -⟩ := Prod.mk.inj h
    obtain rfl := Except.ok.inj hstored
    exact ⟨rfl, rfl⟩
  | folder f =>
    unfold PayloadStore.persist at h
    dsimp only at h
    rcases hf : f.persist envelope.listType body with ⟨result, f'⟩
    rw [hf] at h
    obtain rfl := (Prod.mk.inj h).1
    exact BlobFolder.persist_stored hf

variable {ε : Type} {refuses : ε → Envelope → Bytes → Option StorageError}

theorem Archive.keep_stored {a : Archive ε} {envelope : Envelope} {body : Bytes}
    {stored : StoredBody} {payloads : PayloadStore}
    (h : a.keep refuses envelope body = (.ok stored, payloads)) :
    stored.digest = .ofBody body ∧ stored.size = body.length := by
  unfold Archive.keep at h
  split at h
  · cases (Prod.mk.inj h).1
  · exact PayloadStore.persist_stored h

/-! ## What a commit makes of a ledger -/

/-- A commit decided rightly about the current artefact of its key and did what it decided. -/
structure Ledger.Takes (l : Ledger) (envelope : Envelope) (body : Bytes) (now : Instant)
    (c : Committed) (l' : Ledger) : Prop where
  /-- The current artefact of the key is superseded if its window is open. -/
  supersedes : ∀ id, c.decision = .supersede id ↔
    ∃ p, l.currentFor envelope.key = some p ∧ now ≤ p.envelope.displayTo ∧ p.id = id
  createsNew : c.decision = .createNew ↔
    ∀ p, l.currentFor envelope.key = some p → p.envelope.displayTo < now
  /-- It is expired if its window has ended. -/
  expires : ∀ id, c.expired = some id ↔
    ∃ p, l.currentFor envelope.key = some p ∧ p.envelope.displayTo < now ∧ p.id = id
  /-- The new artefact is current from now on. -/
  current : l'.currentFor envelope.key = some c.artefact
  isNew : l.get? c.artefact.id = none
  sent : c.artefact.envelope = envelope
  sequence : c.artefact.sequence = l.largestSequence + 1
  link : c.artefact.supersedes = c.decision.prior
  digest : c.artefact.body.digest = .ofBody body
  size : c.artefact.body.size = body.length
  /-- A window that was open ends now, if it has started and does not end before. -/
  closed : ∀ p, l.currentFor envelope.key = some p → now ≤ p.envelope.displayTo →
    ∃ q, l'.get? p.id = some q ∧ p.SameRecord q ∧ q.state = .superseded ∧
      q.supersededBy = some c.artefact.id ∧
      q.effectiveTo.seconds =
        max p.effectiveFrom.seconds (min p.effectiveTo.seconds now.seconds)
  /-- A window that had ended stays as it was. -/
  ended : ∀ p, l.currentFor envelope.key = some p → p.envelope.displayTo < now →
    ∃ q, l'.get? p.id = some q ∧ p.SameRecord q ∧ q.state = .expired ∧
      q.effectiveTo = p.effectiveTo
  others : ∀ id, id ≠ c.artefact.id → (∀ p, l.currentFor envelope.key = some p → p.id ≠ id) →
    l'.get? id = l.get? id
  /-- Other keys keep what is current under them. -/
  elsewhere : ∀ key, key ≠ envelope.key → l'.currentFor key = l.currentFor key

/-- Room was made under a key of a coherent ledger, and the commit that the decision asks for was
carried out. -/
structure Ledger.Carried (l : Ledger) (envelope : Envelope) (stored : StoredBody) (id : ArtefactId)
    (now : Instant) (existing : Option Artefact) (expired : Option ArtefactId) (between : Ledger)
    (artefact : Artefact) (l' : Ledger) : Prop where
  coherent : l.Coherent
  isNew : l.get? id = none
  clears : Clears l envelope.key now existing expired between
  commit : between.commit
    ⟨.new id envelope stored now, (resolve envelope existing now).prior, now⟩ = (.ok artefact, l')

namespace Ledger.Carried

variable {l between l' : Ledger} {envelope : Envelope} {stored : StoredBody} {id : ArtefactId}
  {now : Instant} {existing : Option Artefact} {expired : Option ArtefactId} {artefact : Artefact}

/-- Whatever made room, the counter did not move and the new identifier is still new. -/
theorem between_new (h : Carried l envelope stored id now existing expired between artefact l') :
    between.get? id = none ∧ between.lastSequence = l.lastSequence := by
  constructor
  · cases hget : between.get? id with
    | none => rfl
    | some x =>
      obtain ⟨y, hy, -⟩ := h.clears.record hget
      rw [h.isNew] at hy
      cases hy
  · cases h.clears with
    | free _ => rfl
    | standing _ _ => rfl
    | ended _ _ hexpire =>
      obtain ⟨-, -, -, hbetween⟩ := expire_eq_ok hexpire
      rw [hbetween]
      rfl

theorem ne_new (h : Carried l envelope stored id now existing expired between artefact l')
    {other : ArtefactId} {a : Artefact} (ha : l.get? other = some a) : other ≠ id := by
  rintro rfl
  rw [h.isNew] at ha
  cases ha

/-- Nothing changes but the artefact that was current under the key. -/
theorem get?_of_ne (h : Carried l envelope stored id now existing expired between artefact l')
    {other : ArtefactId} (hnew : other ≠ id)
    (hprior : ∀ p, l.currentFor envelope.key = some p → p.id ≠ other) :
    l'.get? other = l.get? other := by
  have hcommit : l'.get? other = between.get? other := by
    refine get?_commit_of_ne h.commit hnew ?_
    intro hsome
    change (resolve envelope existing now).prior = some other at hsome
    cases h.clears with
    | free hnone => cases hsome
    | @standing p hp hopen =>
      obtain ⟨-, -, hkey, hstate⟩ := h.coherent.currentFor_eq_some hp
      simp only [resolve, Artefact.isCurrent, hstate, hopen, hkey, decide_true, Bool.not_false,
        Bool.and_self, if_true, Decision.prior, Option.some.injEq] at hsome
      exact hprior p hp hsome
    | ended _ _ _ => cases hsome
  rw [hcommit]
  cases h.clears with
  | free _ => rfl
  | standing _ _ => rfl
  | @ended p b _ hp _ hexpire => rw [get?_expire hexpire, if_neg (Ne.symm (hprior p hp))]

/-- All of it has to do with the key of the envelope only. -/
theorem changesUnder (h : Carried l envelope stored id now existing expired between artefact l') :
    l.ChangesUnder envelope.key l' :=
  (h.clears.changesUnder h.coherent).trans
    (changesUnder_commit (h.clears.coherent h.coherent).1 h.commit h.between_new.1)

/-- What was current and open was superseded by the new artefact. -/
theorem superseded (h : Carried l envelope stored id now existing expired between artefact l')
    {p : Artefact} (hp : l.currentFor envelope.key = some p)
    (hopen : now ≤ p.envelope.displayTo) :
    ∃ q, l'.get? p.id = some q ∧ p.SameRecord q ∧ q.state = .superseded ∧
      q.supersededBy = some id ∧
      q.effectiveTo.seconds =
        max p.effectiveFrom.seconds (min p.effectiveTo.seconds now.seconds) := by
  cases h.clears with
  | free hnone => cases hnone.symm.trans hp
  | @standing other hother hstands =>
    obtain rfl := Option.some.inj (hp.symm.trans hother)
    obtain ⟨-, hget, hkey, hstate⟩ := h.coherent.currentFor_eq_some hp
    have hdecision : (resolve envelope (some p) now).prior = some p.id := by
      simp [resolve, Artefact.isCurrent, hstate, hstands, hkey, Decision.prior]
    obtain ⟨prior, closed, hprior, hsup, hclosed⟩ :=
      get?_commit_prior h.commit hdecision (h.ne_new hget)
    obtain rfl := Option.some.inj (hget.symm.trans hprior)
    refine ⟨closed, hclosed, hsup.record, hsup.state, hsup.supersededBy, ?_⟩
    rw [hsup.effectiveTo, Instant.seconds_later, Instant.seconds_earlier]
    exact Int.max_comm _ _
  | ended hother hended _ =>
    obtain rfl := Option.some.inj (hp.symm.trans hother)
    exact absurd ((p.hasEnded_iff now).mp hended) (Instant.not_lt_of_le hopen)

/-- What was current and had ended was expired. -/
theorem retired (h : Carried l envelope stored id now existing expired between artefact l')
    {p : Artefact} (hp : l.currentFor envelope.key = some p)
    (hlate : p.envelope.displayTo < now) :
    ∃ q, l'.get? p.id = some q ∧ p.SameRecord q ∧ q.state = .expired ∧
      q.effectiveTo = p.effectiveTo := by
  cases h.clears with
  | free hnone => cases hnone.symm.trans hp
  | standing hother hopen =>
    obtain rfl := Option.some.inj (hp.symm.trans hother)
    exact absurd hlate (Instant.not_lt_of_le ((p.hasEnded_eq_false_iff now).mp hopen))
  | @ended other b _ hother _ hexpire =>
    obtain rfl := Option.some.inj (hp.symm.trans hother)
    obtain ⟨-, hget, -, -⟩ := h.coherent.currentFor_eq_some hp
    obtain ⟨a, ha, hexp, -⟩ := expire_eq_ok hexpire
    obtain rfl := Option.some.inj (hget.symm.trans ha)
    refine ⟨b, ?_, hexp.record, hexp.state, hexp.effectiveTo⟩
    rw [get?_commit_of_ne h.commit (h.ne_new hget) (by simp [resolve, Decision.prior]),
      get?_expire hexpire, if_pos rfl]

/-- The decision and the expiry are those that the current artefact of the key asks for. -/
theorem decides (h : Carried l envelope stored id now existing expired between artefact l') :
    (∀ other, resolve envelope existing now = .supersede other ↔
      ∃ p, l.currentFor envelope.key = some p ∧ now ≤ p.envelope.displayTo ∧ p.id = other) ∧
    (resolve envelope existing now = .createNew ↔
      ∀ p, l.currentFor envelope.key = some p → p.envelope.displayTo < now) ∧
    ∀ other, expired = some other ↔
      ∃ p, l.currentFor envelope.key = some p ∧ p.envelope.displayTo < now ∧ p.id = other := by
  cases h.clears with
  | free hnone => simp [hnone, resolve]
  | @standing p hp hopen =>
    obtain ⟨-, -, hkey, hstate⟩ := h.coherent.currentFor_eq_some hp
    have hdecision : resolve envelope (some p) now = .supersede p.id := by
      simp [resolve, Artefact.isCurrent, hstate, hopen, hkey]
    have hlater := (p.hasEnded_eq_false_iff now).mp hopen
    simp [hdecision, hp, hlater, Instant.not_lt_of_le hlater]
  | @ended p _ _ hp hended _ =>
    have hlate := (p.hasEnded_iff now).mp hended
    have hclosed : ¬ now ≤ p.envelope.displayTo := fun hle => Instant.not_lt_of_le hle hlate
    simp [resolve, hp, hlate, hclosed]

/-- A commit that was carried out decided rightly and did what it decided. -/
theorem takes (h : Carried l envelope stored id now existing expired between artefact l')
    {body : Bytes} (hdigest : stored.digest = .ofBody body) (hsize : stored.size = body.length) :
    l.Takes envelope body now ⟨artefact, resolve envelope existing now, expired⟩ l' := by
  obtain ⟨-, hcount⟩ := h.between_new
  obtain ⟨hnew, hsent, hstored, hkept⟩ := commit_artefact h.commit
  change artefact.id = id at hnew
  change artefact.body = stored at hstored
  obtain ⟨hsupersedes, hcreatesNew, hexpires⟩ := h.decides
  have hindex : Table.get? envelope.key l'.current = some id :=
    (current_commit h.commit envelope.key).trans (if_pos rfl)
  exact {
    supersedes := hsupersedes
    createsNew := hcreatesNew
    expires := hexpires
    current := by
      rw [currentFor, hindex, ← hnew]
      exact hkept
    isNew := hnew ▸ h.isNew
    sent := hsent
    sequence := by rw [commit_sequence h.commit, hcount, h.coherent.largestSequence_eq]
    link := commit_supersedes h.commit rfl
    digest := hstored ▸ hdigest
    size := hstored ▸ hsize
    closed := fun p hp hopen => hnew ▸ h.superseded hp hopen
    ended := fun p hp hlate => h.retired hp hlate
    others := fun other hne => h.get?_of_ne (fun hsame => hne (hsame.trans hnew.symm))
    elsewhere := h.changesUnder.elsewhere }

end Ledger.Carried

namespace Engine

/-! ## Reached archives -/

/-- The states that commits and sweeps by an engine lead to. In between others may take or give
back locks, use the payload store, and note down what they like. -/
inductive Reached (e : Engine ε) : Archive ε → Prop
  | start (payloads : PayloadStore) (draw : Nat → ArtefactId) (notes : ε) :
    Reached e (.start payloads draw notes)
  | commit {a : Archive ε} (envelope : Envelope) (body : Bytes) (now : Instant)
    (h : Reached e a) : Reached e (e.commit a envelope body now).2
  | sweep {a : Archive ε} (now : Instant) (h : Reached e a) : Reached e (expireDue a now).2
  | meanwhile {a : Archive ε} (payloads : PayloadStore) (locks : KeyLocks IdentityKey) (notes : ε)
    (h : Reached e a) : Reached e { a with payloads, locks, notes }

variable {timeout : Nat}

/-- Every archive that is reached is coherent, as long as the identifiers that were drawn are
different from each other. -/
theorem Reached.coherent {a : Archive ε} (h : Reached ⟨.refusing refuses, timeout⟩ a)
    (hids : a.ids.Distinct) : a.Coherent := by
  induction h with
  | start payloads draw notes => exact Archive.coherent_start payloads draw notes
  | @commit a envelope body now _ ih =>
    have hcommits : Commits refuses timeout a envelope body now _ _ :=
      commit_commits a envelope body now
    exact hcommits.coherent (ih (IdSupply.Continues.distinct hcommits.ids hids)) hids
  | @sweep a now _ ih =>
    obtain ⟨l, locks, -, heq⟩ := expireDue_ledger a now
    rw [heq] at hids
    exact (ih hids).expireDue now
  | meanwhile payloads locks notes _ ih => exact ⟨(ih hids).ledger, (ih hids).drawn⟩

/-- Work under a lock is done while nobody holds a lock. -/
theorem withLock_of_free {α : Type} {a : Archive ε} (h : a.locks.Free) (key : IdentityKey)
    (timedOut : α) (act : Archive ε → α × Archive ε) :
    ∃ held locks, withLock a key timedOut act =
      ((act { a with locks := held }).1, { (act { a with locks := held }).2 with locks }) := by
  obtain ⟨held, hheld⟩ := h.tryLock key
  unfold withLock
  simp only [hheld]
  exact ⟨held, _, rfl⟩

/-- In a coherent archive in which nobody holds a lock, a body that is kept is committed. -/
theorem commit_takes {a : Archive ε} {envelope : Envelope} {body : Bytes} (ha : a.Coherent)
    (hids : a.ids.next.2.Distinct) (hfree : a.locks.Free)
    (hkept : ∃ stored payloads, a.keep refuses envelope body = (.ok stored, payloads))
    (now : Instant) :
    ∃ c a', Engine.commit ⟨.refusing refuses, timeout⟩ a envelope body now = (.ok c, a') ∧
      a.ledger.Takes envelope body now c a'.ledger := by
  obtain ⟨stored, payloads, hkeep⟩ := hkept
  obtain ⟨existing, expired, l, hclear⟩ := ha.ledger.clears envelope.key now
  obtain ⟨hcoherent, hindex⟩ := hclear.coherent ha.ledger
  obtain ⟨artefact, l', hcommit⟩ :=
    Ledger.commit_of_indexed (c := a.request envelope stored existing now) hcoherent hindex
  obtain ⟨held, locks, hlock⟩ := withLock_of_free hfree envelope.key
    (.error (.conflict envelope.key.text (.lockTimeout timeout)))
    (fun a => Engine.commitLocked ⟨.refusing refuses, timeout⟩ a envelope body now)
  have hpersist : (Stores.refusing refuses).persist { a with locks := held, ledger := l } envelope
      body = (.ok stored, { a with locks := held, ledger := l, payloads }) := by
    have hsame : ({ a with locks := held, ledger := l } : Archive ε).keep refuses envelope body =
        (.ok stored, payloads) := hkeep
    simp [Stores.refusing, hsame]
  have hlocked := commitLocked_of_kept (e := ⟨.refusing refuses, timeout⟩)
    (a := { a with locks := held }) rfl hclear hpersist hcommit
  obtain ⟨hdigest, hsize⟩ := Archive.keep_stored hkeep
  have hcarried : Ledger.Carried a.ledger envelope stored a.ids.next.1 now existing expired l
      artefact l' := ⟨ha.ledger, ha.next_isNew hids, hclear, hcommit⟩
  rw [Engine.commit, hlock, hlocked]
  exact ⟨_, _, rfl, hcarried.takes hdigest hsize⟩

/-- A commit by the engine succeeds whenever its body is kept and nobody holds a lock, in every
state that commits and sweeps lead to and at every instant. It supersedes the artefact that is
current under its key if the display window of that artefact is open, expires it if the window has
ended, and changes nothing else. -/
theorem a_kept_body_is_committed {a : Archive ε} {envelope : Envelope} {body : Bytes}
    {now : Instant} (hreach : Reached ⟨.refusing refuses, timeout⟩ a) (hids : a.ids.next.2.Distinct)
    (hfree : a.locks.Free)
    (hkept : ∃ stored payloads, a.keep refuses envelope body = (.ok stored, payloads)) :
    ∃ c a', Engine.commit ⟨.refusing refuses, timeout⟩ a envelope body now = (.ok c, a') ∧
      a.ledger.Takes envelope body now c a'.ledger :=
  commit_takes (hreach.coherent (a.ids.continues_next.distinct hids)) hids hfree hkept now

/-! Two commits for one key, while the display window of the first is open. -/

namespace Example

def engine : Engine Unit := ⟨.refusing (fun _ _ _ => none), 100⟩

def envelope : Envelope := Ledger.Example.envelope "123"

/-- The archive after the first commit of an envelope. -/
def after (envelope : Envelope) : Archive Unit :=
  (engine.commit (.start .empty .ofRandom ()) envelope [123, 125] .epoch).2

def before : Archive Unit := after envelope

theorem reached_after (envelope : Envelope) : Reached engine (after envelope) :=
  .commit envelope [123, 125] .epoch (.start .empty .ofRandom ())

/-- Two identifiers at random are different. -/
theorem distinct_of_two {s : IdSupply} (hdraw : s.draw = .ofRandom) (hdrawn : s.drawn = 2) :
    s.Distinct := by
  intro i j hij hj
  obtain ⟨rfl, rfl⟩ : i = 0 ∧ j = 1 := by omega
  rw [hdraw]
  decide

theorem free_of_no_numbers {l : KeyLocks IdentityKey} (h : l.numbers = []) : l.Free := by
  intro key number hnumber
  rw [h] at hnumber
  cases hnumber

end Example

theorem a_second_commit_supersedes_the_first :
    Reached Example.engine Example.before ∧ Example.before.ids.next.2.Distinct ∧
      Example.before.locks.Free ∧
      ∃ c a', Example.engine.commit Example.before Example.envelope [91, 93] .epoch = (.ok c, a') ∧
        Example.before.ledger.Takes Example.envelope [91, 93] .epoch c a'.ledger ∧
        c.decision = .supersede (.ofRandom 0) := by
  have hreach : Reached Example.engine Example.before := Example.reached_after _
  have hids : Example.before.ids.next.2.Distinct :=
    Example.distinct_of_two rfl (by decide +kernel)
  have hfree : Example.before.locks.Free := Example.free_of_no_numbers (by decide +kernel)
  have hkept : ∃ stored payloads, Example.before.keep (fun _ _ _ => none) Example.envelope
      [91, 93] = (.ok stored, payloads) := ⟨_, _, rfl⟩
  obtain ⟨c, a', hcommit, htakes⟩ :
      ∃ c a', Example.engine.commit Example.before Example.envelope [91, 93] .epoch = (.ok c, a') ∧
        Example.before.ledger.Takes Example.envelope [91, 93] .epoch c a'.ledger :=
    a_kept_body_is_committed hreach hids hfree hkept
  refine ⟨hreach, hids, hfree, c, a', hcommit, htakes, ?_⟩
  have hcurrent : (Example.before.ledger.currentFor Example.envelope.key).map
      (fun p => (p.id, p.envelope.displayTo)) = some (.ofRandom 0, .epoch) := by
    decide +kernel
  obtain ⟨p, hp, hpair⟩ := Option.map_eq_some_iff.mp hcurrent
  obtain ⟨hid, hto⟩ := Prod.mk.inj hpair
  exact (htakes.supersedes _).mpr ⟨p, hp, hto ▸ Int.le_refl _, hid⟩

end Engine

end CauseLists
