-- What a sweep expires. While nobody holds a lock it expires every artefact that is due, in the
-- order of the commits, and nothing else; a second sweep finds nothing. A commit that comes after
-- it decides as it would have decided before, for it would have expired the same artefact itself.
import CauseLists.Proofs.Ledger.Current
import CauseLists.Proofs.Supersession.Alone

namespace CauseLists

namespace Ledger

variable {l l' : Ledger} {now : Instant}

/-! ## What is due -/

/-- The artefacts that a sweep sets out to expire. -/
def due (l : Ledger) (now : Instant) : List Artefact :=
  l.currentArtefacts.filter (fun x => x.hasEnded now)

theorem Coherent.mem_due (h : l.Coherent) (honce : l.IndexedOnce) (now : Instant) (x : Artefact) :
    x ∈ l.due now ↔
      l.get? x.id = some x ∧ x.state = .current ∧ x.envelope.displayTo < now := by
  rw [due, List.mem_filter, h.mem_currentArtefacts honce, x.hasEnded_iff, and_assoc]

/-- Artefacts that can be expired one after another: each is current and has ended, and no two
have one key. -/
structure Expirable (l : Ledger) (now : Instant) (xs : List Artefact) : Prop where
  current : ∀ x ∈ xs, l.currentFor x.key = some x
  ended : ∀ x ∈ xs, x.hasEnded now = true
  apart : xs.Pairwise (fun x y => x.key ≠ y.key)

theorem Coherent.expirable_due (h : l.Coherent) (honce : l.IndexedOnce) (now : Instant) :
    l.Expirable now (l.due now) where
  current := by
    intro x hx
    obtain ⟨hget, hstate, -⟩ := (h.mem_due honce now x).mp hx
    exact h.currentFor_of_current hget hstate
  ended := fun x hx => (List.mem_filter.mp hx).2
  apart := (h.keys_currentArtefacts honce).filter _

namespace Expirable

variable {xs : List Artefact}

/-- Artefacts under different keys have different identifiers. -/
theorem ids (hxs : l.Expirable now xs) (h : l.Coherent) :
    xs.Pairwise (fun x y => x.id ≠ y.id) := by
  refine hxs.apart.imp_of_mem ?_
  intro x y hx hy hne hsame
  obtain ⟨-, hget, -, -⟩ := h.currentFor_eq_some (hxs.current x hx)
  obtain ⟨-, hget', -, -⟩ := h.currentFor_eq_some (hxs.current y hy)
  rw [hsame, hget'] at hget
  exact hne (congrArg Artefact.key (Option.some.inj hget).symm)

/-- When the first of them has expired the others are current still. -/
theorem tail {x : Artefact} (hxs : l.Expirable now (x :: xs)) (h : l.Coherent) :
    (l.retire ⟨x.id, x.key, now⟩).Expirable now xs where
  current := by
    intro y hy
    have hkey := (List.pairwise_cons.mp hxs.apart).1 y hy
    have hid := (List.pairwise_cons.mp (hxs.ids h)).1 y hy
    have hcurrent := hxs.current y (List.mem_cons_of_mem x hy)
    rw [currentFor_retire (Ne.symm hkey), hcurrent]
    rw [(h.currentFor_eq_some hcurrent).1]
    exact fun hsame => hid (Option.some.inj hsame).symm
  ended := fun y hy => hxs.ended y (List.mem_cons_of_mem x hy)
  apart := (List.pairwise_cons.mp hxs.apart).2

end Expirable

/-! ## What is left -/

/-- The expiries of a sweep. -/
def sweepRetirements (now : Instant) (xs : List Artefact) : List Retirement :=
  xs.map (fun x => ⟨x.id, x.key, now⟩)

theorem Expirable.retirements_apart {xs : List Artefact} (hxs : l.Expirable now xs)
    (h : l.Coherent) : (sweepRetirements now xs).Pairwise Retirement.Apart :=
  List.pairwise_map.mpr ((hxs.ids h).and hxs.apart)

/-- All that was due has expired, its window as it was, and nothing else has changed. -/
structure Swept (l : Ledger) (now : Instant) (expired : List Artefact) (l' : Ledger) : Prop where
  due : ∀ x, x ∈ expired ↔
    l.get? x.id = some x ∧ x.state = .current ∧ x.envelope.displayTo < now
  inOrder : expired.Pairwise (fun x y => x.sequence < y.sequence)
  closed : ∀ x ∈ expired, ∃ y, l'.get? x.id = some y ∧ x.Expired now y
  others : ∀ id, (∀ x ∈ expired, id ≠ x.id) → l'.get? id = l.get? id
  /-- The keys of what has expired are free. -/
  freed : ∀ x ∈ expired, l'.currentFor x.key = none
  elsewhere : ∀ key, (∀ x ∈ expired, key ≠ x.key) → l'.currentFor key = l.currentFor key
  chains : l'.chains = l.chains
  lastSequence : l'.lastSequence = l.lastSequence

theorem Coherent.swept_retireAll (h : l.Coherent) (honce : l.IndexedOnce) (now : Instant) :
    l.Swept now (l.due now) (l.retireAll (sweepRetirements now (l.due now))) := by
  have hdue := h.expirable_due honce now
  have hretired : ∀ x ∈ l.due now,
      (⟨x.id, x.key, now⟩ : Retirement) ∈ sweepRetirements now (l.due now) :=
    fun x hx => List.mem_map_of_mem hx
  refine ⟨h.mem_due honce now, (h.currentArtefacts_inOrder honce).filter _, ?_, ?_, ?_, ?_,
    retireAll_chains l _, retireAll_lastSequence l _⟩
  · intro x hx
    obtain ⟨hget, hstate, -⟩ := (h.mem_due honce now x).mp hx
    obtain ⟨y, hy⟩ := Artefact.expire_of_current hstate (hdue.ended x hx)
    refine ⟨y, ?_, Artefact.expire_spec hy⟩
    rw [get?_retireAll_of_mem (hdue.retirements_apart h) (hretired x hx), hget]
    simp [hy]
  · intro id hid
    refine get?_retireAll_of_ne ?_
    intro r hr
    obtain ⟨x, hx, rfl⟩ := List.mem_map.mp hr
    exact hid x hx
  · intro x hx
    rw [currentFor, index_retireAll_of_mem l (hretired x hx)]
    rfl
  · intro key hkey
    refine currentFor_retireAll ?_
    intro r hr
    obtain ⟨x, hx, rfl⟩ := List.mem_map.mp hr
    refine ⟨hkey x hx, ?_⟩
    intro hindex
    obtain ⟨a, ha, hakey, -⟩ := (h.indexed key x.id).mp hindex
    obtain rfl := Option.some.inj (((h.mem_due honce now x).mp hx).1.symm.trans ha)
    exact hkey x hx hakey.symm

namespace Swept

variable {expired : List Artefact}

/-- Nothing is due any more. -/
theorem due_eq_nil (hswept : l.Swept now expired l') (h' : l'.Coherent)
    (honce' : l'.IndexedOnce) : l'.due now = [] := by
  rw [List.eq_nil_iff_forall_not_mem]
  intro x hx
  obtain ⟨hget, hstate, hlate⟩ := (h'.mem_due honce' now x).mp hx
  -- Either it has expired by now, or it is as it was and would have been found.
  by_cases hwas : ∃ y ∈ expired, x.id = y.id
  · obtain ⟨y, hy, hid⟩ := hwas
    obtain ⟨z, hz, hexp⟩ := hswept.closed y hy
    rw [← hid, hget] at hz
    obtain rfl := Option.some.inj hz
    rw [hexp.state] at hstate
    cases hstate
  · have hne : ∀ y ∈ expired, x.id ≠ y.id := fun y hy hid => hwas ⟨y, hy, hid⟩
    rw [hswept.others x.id hne] at hget
    exact hne x ((hswept.due x).mpr ⟨hget, hstate, hlate⟩) rfl

/-- Room for a commit is what it was, and has not to be made any more. -/
theorem room_eq (hswept : l.Swept now expired l') (h : l.Coherent) (key : IdentityKey) :
    l'.room key now = ((l.room key now).1, none) := by
  have hcurrent : ∀ x ∈ expired, l.currentFor x.key = some x := by
    intro x hx
    obtain ⟨hget, hstate, -⟩ := (hswept.due x).mp hx
    exact h.currentFor_of_current hget hstate
  unfold room
  cases hp : l.currentFor key with
  | none =>
    have hout : ∀ x ∈ expired, key ≠ x.key := by
      rintro x hx rfl
      rw [hcurrent x hx] at hp
      cases hp
    rw [hswept.elsewhere key hout, hp]
  | some p =>
    obtain ⟨-, hget, rfl, hstate⟩ := h.currentFor_eq_some hp
    cases hended : p.hasEnded now with
    | true =>
      have hin := (hswept.due p).mpr ⟨hget, hstate, (p.hasEnded_iff now).mp hended⟩
      simp [hswept.freed p hin, hended]
    | false =>
      have hout : ∀ x ∈ expired, p.key ≠ x.key := by
        intro x hx hkey
        have hsame := hcurrent x hx
        rw [← hkey, hp] at hsame
        obtain rfl := Option.some.inj hsame
        rw [(p.hasEnded_iff now).mpr ((hswept.due p).mp hx).2.2] at hended
        cases hended
      simp [hswept.elsewhere p.key hout, hp, hended]

end Swept

end Ledger

variable {ε : Type} {refuses : ε → Envelope → Bytes → Option StorageError} {timeout : Nat}

/-! ## The index along a run -/

theorem Ledger.IndexedOnce.expires {now : Instant} {l l' : Ledger} (h : l.IndexedOnce)
    (hl : Relation.ReflTransGen (Ledger.Expires now) l l') : l'.IndexedOnce := by
  induction hl with
  | refl => exact h
  | tail _ hstep ih =>
    obtain ⟨id, b, hexpire⟩ := hstep
    exact ih.expire hexpire

theorem Ledger.IndexedOnce.clears {l l' : Ledger} (h : l.IndexedOnce) {key : IdentityKey}
    {now : Instant} {existing : Option Artefact} {expired : Option ArtefactId}
    (hclear : Clears l key now existing expired l') : l'.IndexedOnce := by
  cases hclear with
  | free _ => exact h
  | standing _ _ => exact h
  | ended _ _ hexpire => exact h.expire hexpire

theorem Commits.indexedOnce {a a' : Archive ε} {envelope : Envelope} {body : Bytes}
    {now : Instant} {r : Except CommitError Committed}
    (h : Commits refuses timeout a envelope body now r a') (ha : a.ledger.IndexedOnce) :
    a'.ledger.IndexedOnce := by
  cases h with
  | contended _ => exact ha
  | uncleared _ _ _ _ => exact ha
  | unkept _ hclear _ => exact ha.clears hclear
  | uncommitted _ hclear _ _ => exact ha.clears hclear
  | committed _ hclear _ hcommit => exact (ha.clears hclear).commit hcommit

namespace Engine

/-- The index of every archive that is reached has one row for each key. -/
theorem Reached.indexedOnce {a : Archive ε} (h : Reached ⟨.refusing refuses, timeout⟩ a) :
    a.ledger.IndexedOnce := by
  induction h with
  | start payloads draw notes => exact Ledger.indexedOnce_empty
  | @commit a envelope body now _ ih =>
    have hcommits : Commits refuses timeout a envelope body now _ _ :=
      commit_commits a envelope body now
    exact hcommits.indexedOnce ih
  | @sweep a now _ ih =>
    obtain ⟨l, locks, hl, heq⟩ := expireDue_ledger a now
    rw [heq]
    exact ih.expires hl
  | meanwhile payloads locks notes _ ih => exact ih

/-! ## Sweeps -/

/-- Work under a lock that nobody holds leaves the locks as they were. -/
theorem withLock_of_idle {α : Type} {a : Archive ε} (hidle : a.locks.Idle) (key : IdentityKey)
    (timedOut : α) (act : Archive ε → α × Archive ε) {result : α} (a' : Archive ε)
    (hact : ∀ held, act { a with locks := held } = (result, { a' with locks := held })) :
    ∃ n, a.locks.next ≤ n ∧ withLock a key timedOut act =
      (result, { a' with locks := { a.locks with next := n } }) := by
  obtain ⟨held, n, htry, hn, hback⟩ := hidle.take key
  refine ⟨n, hn, ?_⟩
  unfold withLock
  simp only [htry, hact, hback]

/-- One candidate that is current and has ended is retired. -/
theorem expireIfCurrent_of_current {a : Archive ε} (ha : a.ledger.Coherent) {x : Artefact}
    {now : Instant} (hx : a.ledger.currentFor x.key = some x) (hended : x.hasEnded now = true) :
    expireIfCurrent a x.key x.id now =
      (.ok (some x.id), { a with ledger := a.ledger.retire ⟨x.id, x.key, now⟩ }) := by
  obtain ⟨b, hexpire⟩ := ha.expire_current hx hended
  simp [expireIfCurrent, hx, Archive.expire, hexpire]

/-- A sweep expires all of its candidates if they can be expired, for each is still current when its
turn comes. -/
theorem expireEach_of_expirable {a : Archive ε} (ha : a.ledger.Coherent) (hidle : a.locks.Idle)
    {now : Instant} {xs : List Artefact} (hxs : a.ledger.Expirable now xs) :
    ∃ n, a.locks.next ≤ n ∧ expireEach a now xs = (.ok (xs.map Artefact.id),
      { a with
        ledger := a.ledger.retireAll (Ledger.sweepRetirements now xs)
        locks := { a.locks with next := n } }) := by
  induction xs generalizing a with
  | nil => exact ⟨a.locks.next, Nat.le_refl _, rfl⟩
  | cons x xs ih =>
    have hx := hxs.current x List.mem_cons_self
    have hended := hxs.ended x List.mem_cons_self
    obtain ⟨n, hn, hone⟩ := withLock_of_idle hidle x.key (.ok none)
      (fun a => expireIfCurrent a x.key x.id now)
      { a with ledger := a.ledger.retire ⟨x.id, x.key, now⟩ }
      (fun held => expireIfCurrent_of_current (a := { a with locks := held }) ha hx hended)
    obtain ⟨b, hexpire⟩ := ha.expire_current hx hended
    -- The first is out of the ledger and the locks are as free as before.
    obtain ⟨m, hm, hrest⟩ := ih
      (a := { a with
        ledger := a.ledger.retire ⟨x.id, x.key, now⟩
        locks := { a.locks with next := n } })
      (Ledger.coherent_expire ha hexpire) (hidle.skip hn) (hxs.tail ha)
    refine ⟨m, Nat.le_trans hn hm, ?_⟩
    simp only [expireEach, hone, hrest]
    rfl

/-- A sweep of a reached archive, told by what is due in it. -/
theorem expireDue_of_idle {a : Archive ε} (ha : a.ledger.Coherent) (honce : a.ledger.IndexedOnce)
    (hidle : a.locks.Idle) (now : Instant) :
    ∃ l n, expireDue a now = (.ok ((a.ledger.due now).map Artefact.id),
        { a with ledger := l, locks := { a.locks with next := n } }) ∧
      a.locks.next ≤ n ∧ a.ledger.Swept now (a.ledger.due now) l := by
  obtain ⟨n, hn, hrun⟩ := expireEach_of_expirable ha hidle (ha.expirable_due honce now)
  exact ⟨_, n, hrun, hn, ha.swept_retireAll honce now⟩

/-! ## Commits after a sweep -/

/-- What a commit answers if nobody holds a lock: the refusal of the payload store, or an artefact
that takes the next place in its chain. -/
def answer (refuses : ε → Envelope → Bytes → Option StorageError) (a : Archive ε)
    (envelope : Envelope) (body : Bytes) (now : Instant) : Except CommitError Committed :=
  let room := a.ledger.room envelope.key now
  let decision := resolve envelope room.1 now
  ((a.keep refuses envelope body).1.mapError CommitError.storage).map (fun stored =>
    { artefact := { Artefact.new a.ids.next.1 envelope stored now with
        supersedes := decision.prior
        sequence := a.ledger.lastSequence + 1 }
      decision
      expired := room.2 })

theorem commit_answers {a : Archive ε} (ha : a.ledger.Coherent) (hfree : a.locks.Free)
    (envelope : Envelope) (body : Bytes) (now : Instant) :
    (Engine.commit ⟨.refusing refuses, timeout⟩ a envelope body now).1 =
      answer refuses a envelope body now := by
  obtain ⟨held, locks, hlock⟩ := withLock_of_free hfree envelope.key
    (.error (.conflict envelope.key.text (.lockTimeout timeout)))
    (fun a => Engine.commitLocked ⟨.refusing refuses, timeout⟩ a envelope body now)
  obtain ⟨existing, expired, hroom⟩ : ∃ existing expired,
      a.ledger.room envelope.key now = (existing, expired) := ⟨_, _, rfl⟩
  obtain ⟨kept, payloads, hkeep⟩ : ∃ kept payloads,
      a.keep refuses envelope body = (kept, payloads) := ⟨_, _, rfl⟩
  rw [Engine.commit, hlock, answer, hroom, hkeep]
  have hclear := ha.clears_room hroom
  have hcount := a.ledger.retireAll_lastSequence (Ledger.retirements envelope.key now expired)
  generalize a.ledger.retireAll (Ledger.retirements envelope.key now expired) = l at hclear hcount
  have hpersist : (Stores.refusing refuses).persist { a with locks := held, ledger := l } envelope
      body = (kept, { a with locks := held, ledger := l, payloads }) := by
    have hsame : ({ a with locks := held, ledger := l } : Archive ε).keep refuses envelope body =
        (kept, payloads) := hkeep
    simp [Stores.refusing, hsame]
  cases kept with
  | error err =>
    rw [commitLocked_of_refused (e := ⟨.refusing refuses, timeout⟩) (a := { a with locks := held })
      hclear hpersist]
    rfl
  | ok stored =>
    obtain ⟨hcoherent, hindex⟩ := hclear.coherent ha
    obtain ⟨artefact, l', hcommit⟩ :=
      Ledger.commit_of_indexed (c := a.request envelope stored existing now) hcoherent hindex
    rw [commitLocked_of_kept (e := ⟨.refusing refuses, timeout⟩) (a := { a with locks := held })
      rfl hclear hpersist hcommit]
    obtain rfl := Ledger.commit_answer hcommit rfl
    rw [hcount]
    rfl

/-- A commit after a sweep answers as one without it, but that it has nothing left to expire. -/
theorem answer_of_swept {a : Archive ε} (ha : a.ledger.Coherent) {now : Instant} {l : Ledger}
    {due : List Artefact} (hswept : a.ledger.Swept now due l) (locks : KeyLocks IdentityKey)
    (envelope : Envelope) (body : Bytes) :
    answer refuses { a with ledger := l, locks } envelope body now =
      (answer refuses a envelope body now).map (fun c => { c with expired := none }) := by
  unfold answer
  dsimp only
  rw [hswept.room_eq ha, hswept.lastSequence]
  have hsame : ({ a with ledger := l, locks } : Archive ε).keep refuses envelope body =
      a.keep refuses envelope body := rfl
  rw [hsame]
  cases (a.keep refuses envelope body).1 <;> rfl

/-- A sweep while nobody holds a lock expires every current artefact whose display window has
ended, in the order of the commits, and changes nothing else; a second sweep at that instant
changes nothing at all. A commit after it is answered as it would have been answered without it:
the decision, the place among the commits and the link to what is superseded are the same. -/
theorem a_sweep_expires_what_is_due {a : Archive ε}
    (hreach : Reached ⟨.refusing refuses, timeout⟩ a) (hids : a.ids.Distinct)
    (hidle : a.locks.Idle) (now : Instant) :
    ∃ due l n, expireDue a now = (.ok (due.map Artefact.id),
        { a with ledger := l, locks := { a.locks with next := n } }) ∧
      a.ledger.Swept now due l ∧
      expireDue (expireDue a now).2 now = (.ok [], (expireDue a now).2) ∧
      ∀ envelope body,
        (Engine.commit ⟨.refusing refuses, timeout⟩ (expireDue a now).2 envelope body now).1 =
          (Engine.commit ⟨.refusing refuses, timeout⟩ a envelope body now).1.map
            (fun c => { c with expired := none }) ∧
        ((∃ stored payloads, a.keep refuses envelope body = (.ok stored, payloads)) →
          ∃ c, (Engine.commit ⟨.refusing refuses, timeout⟩ a envelope body now).1 = .ok c) := by
  have ha := (hreach.coherent hids).ledger
  obtain ⟨l, n, hrun, hn, hswept⟩ := expireDue_of_idle ha hreach.indexedOnce hidle now
  have hafter : (expireDue a now).2 =
      { a with ledger := l, locks := { a.locks with next := n } } := by rw [hrun]
  have hcoherent : l.Coherent := by
    have := ((hreach.coherent hids).expireDue now).ledger
    rwa [hafter] at this
  have honce : l.IndexedOnce := by
    have := (hreach.sweep now).indexedOnce
    rwa [hafter] at this
  refine ⟨a.ledger.due now, l, n, hrun, hswept, ?_, ?_⟩
  · rw [hafter]
    show expireEach _ now (l.due now) = _
    rw [hswept.due_eq_nil hcoherent honce]
    rfl
  · intro envelope body
    constructor
    · rw [hafter, commit_answers (a := { a with ledger := l, locks := { a.locks with next := n } })
        hcoherent (hidle.skip hn).free, commit_answers ha hidle.free, answer_of_swept ha hswept]
    · rintro ⟨stored, payloads, hkeep⟩
      rw [commit_answers ha hidle.free, answer, hkeep]
      exact ⟨_, rfl⟩

namespace Example

theorem idle_of_no_locks {l : KeyLocks IdentityKey} (hnumbers : l.numbers = [])
    (hlocks : l.locks = []) : l.Idle where
  waiting := by simp [hnumbers]
  below := by simp [hlocks]

/-- One second after the end of the display window. -/
def later : Instant := (Instant.ofSeconds? 1).getD .epoch

end Example

theorem an_ended_window_is_due_once :
    Reached Example.engine Example.before ∧ Example.before.ids.Distinct ∧
      Example.before.locks.Idle ∧
      ∃ due l n, expireDue Example.before Example.later = (.ok (due.map Artefact.id),
          { Example.before with ledger := l, locks := { Example.before.locks with next := n } }) ∧
        Example.before.ledger.Swept Example.later due l ∧
        due.map Artefact.id = [.ofRandom 0] ∧
        expireDue (expireDue Example.before Example.later).2 Example.later =
          (.ok [], (expireDue Example.before Example.later).2) ∧
        (Example.engine.commit (expireDue Example.before Example.later).2 Example.envelope
            [91, 93] Example.later).1 =
          (Example.engine.commit Example.before Example.envelope [91, 93] Example.later).1.map
            (fun c => { c with expired := none }) := by
  have hreach : Reached Example.engine Example.before := Example.reached_after _
  have hids : Example.before.ids.Distinct := by
    intro i j hij hj
    have hdrawn : Example.before.ids.drawn = 1 := by decide +kernel
    omega
  have hidle : Example.before.locks.Idle :=
    Example.idle_of_no_locks (by decide +kernel) (by decide +kernel)
  obtain ⟨due, l, n, hrun, hswept, hagain, hcommits⟩ :=
    a_sweep_expires_what_is_due hreach hids hidle Example.later
  have hfound : (expireDue Example.before Example.later).1.toOption = some [.ofRandom 0] := by
    decide +kernel
  rw [hrun] at hfound
  exact ⟨hreach, hids, hidle, due, l, n, hrun, hswept, Option.some.inj hfound, hagain,
    (hcommits Example.envelope [91, 93]).1⟩

end Engine

end CauseLists
