-- What workers come to in each other's company. Every step of a worker keeps the serial archive
-- beside the shared one, so every run does. Hence no call to the ledger fails under a lock, whoever
-- does not get a lock changes nothing, and when all locks are given back the two archives agree.
import CauseLists.Proofs.Supersession.Nesting
import CauseLists.Proofs.Supersession.Serial

namespace CauseLists

variable {ε : Type}

/-! ## Identifiers -/

theorem Archive.commit_ids (a : Archive ε) (c : Commit) : (a.commit c).2.ids = a.ids := rfl

theorem Archive.expire_ids (a : Archive ε) (id : ArtefactId) (now : Instant) :
    (a.expire id now).2.ids = a.ids := rfl

theorem Section.respond_ids (a : Archive ε) (lock : Nat) (found : Option Artefact)
    (work : Section) : (work.respond a lock found).1.ids = a.ids := by
  have hexpire : ∀ {id now result a'}, a.expire id now = (result, a') → a'.ids = a.ids := by
    intro id now result a' heq
    rw [← Archive.expire_ids a id now, heq]
  cases found with
  | none => cases work <;> rfl
  | some p =>
    cases work with
    | commit envelope body now =>
      dsimp only [respond]
      split
      · split <;> exact hexpire ‹_›
      · rfl
    | expiry candidate now =>
      dsimp only [respond]
      split
      · split <;> exact hexpire ‹_›
      · rfl

theorem Section.store_ids (a : Archive ε) (lock : Nat) (existing : Option Artefact)
    (expired : Option ArtefactId) (stored : StoredBody) (envelope : Envelope) (now : Instant) :
    (store a lock existing expired stored envelope now).1.ids = a.ids.next.2 := by
  have hcommit := Archive.commit_ids { a with ids := a.ids.next.2 }
    ⟨.new a.ids.next.1 envelope stored now, (resolve envelope existing now).prior, now⟩
  unfold Section.store
  dsimp only at hcommit ⊢
  split <;> rename_i heq <;> rw [heq] at hcommit <;> exact hcommit

/-- Workers draw identifiers and never give one back. -/
theorem Worker.advance_ids (w : Worker) (answer : Except StorageError StoredBody)
    (a : Archive ε) : a.ids.Continues (w.advance answer a).1.ids := by
  obtain ⟨work, stage⟩ := w
  cases stage with
  | asking =>
    unfold advance
    dsimp only
    split <;> exact .refl a.ids
  | looked lock found =>
    show a.ids.Continues (work.respond a lock found).1.ids
    rw [Section.respond_ids]
    exact .refl a.ids
  | kept lock existing expired stored =>
    cases work with
    | commit envelope body now =>
      show a.ids.Continues (Section.store a lock existing expired stored envelope now).1.ids
      rw [Section.store_ids]
      exact a.ids.continues_next
    | expiry _ _ => exact .refl a.ids
  | _ => exact .refl a.ids

theorem Traffic.move_ids (s : Traffic ε) (m : Move ε) :
    s.archive.ids.Continues (s.move m).archive.ids := by
  cases m with
  | begin _ _ _ => exact .refl _
  | sweep _ => exact .refl _
  | aside _ _ => exact .refl _
  | advance i answer =>
    unfold move
    dsimp only
    split
    · exact Worker.advance_ids _ answer s.archive
    · exact .refl _

theorem Traffic.run_ids (s : Traffic ε) (moves : List (Move ε)) :
    s.archive.ids.Continues (s.run moves).archive.ids := by
  induction moves generalizing s with
  | nil => exact .refl _
  | cons m moves ih => exact (s.move_ids m).trans (ih (s.move m))

namespace Traffic.Shadow

variable {timeout : Nat} {a b c : Archive ε} {records : List Section.Record} {w : Worker}
  {rest : List Worker}

/-- The next step of the first worker leaves a serial archive beside the shared one. What was run in
it before is run first. -/
def Goes (timeout : Nat) (a c : Archive ε) (w : Worker) (rest : List Worker)
    (records : List Section.Record) (answer : Except StorageError StoredBody) : Prop :=
  ∃ records' b, records <+: records' ∧ Shadow timeout a
    ⟨(w.advance answer c).1, ⟨w.work, (w.advance answer c).2⟩ :: rest⟩ records' b

/-! ## Getting the lock -/

theorem ask {work : Section} (h : Shadow timeout a ⟨c, ⟨work, .asking⟩ :: rest⟩ records b)
    (answer : Except StorageError StoredBody) :
    Goes timeout a c ⟨work, .asking⟩ rest records answer := by
  have hheld : c.locks.HeldBy (rest.flatMap Worker.holds) := h.locks
  have hledger : c.ledger = b.ledger.retireAll (rest.flatMap Worker.pending) := h.ledger
  have hwork : work.Known b.ledger := by
    cases h.knows _ List.mem_cons_self with
    | asking hwork => exact hwork
  by_cases hkey : work.key ∈ (rest.flatMap Worker.holds).map LockHandle.key
  · obtain ⟨htry, hrelease⟩ := hheld.refuse hkey
    refine ⟨records, b, List.prefix_rfl, ?_⟩
    simp only [Worker.advance, htry, hrelease]
    exact h.unsettled rfl rfl hledger hheld .refused
  · obtain ⟨locks, htry, hentered⟩ := hheld.admit hkey
    refine ⟨records, b, List.prefix_rfl, ?_⟩
    simp only [Worker.advance, htry]
    refine h.unsettled rfl rfl hledger ?_ (.entered hwork)
    show locks.HeldBy (⟨work.key, (c.locks.handle work.key).1.number⟩ :: _)
    rwa [KeyLocks.mk_handle_number]

/-! ## Looking -/

theorem look {work : Section} {lock : Nat}
    (h : Shadow timeout a ⟨c, ⟨work, .entered lock⟩ :: rest⟩ records b)
    (answer : Except StorageError StoredBody) :
    Goes timeout a c ⟨work, .entered lock⟩ rest records answer := by
  have hledger : c.ledger = b.ledger.retireAll (rest.flatMap Worker.pending) := h.ledger
  have hfound : b.ledger.currentFor work.key = c.ledger.currentFor work.key := by
    rw [hledger]
    refine (Ledger.currentFor_retireAll ?_).symm
    intro r hr
    obtain ⟨hkey, hdue⟩ := h.others_pending rfl r hr
    exact ⟨Ne.symm hkey, hdue.index_ne h.quiet.ledger (Ne.symm hkey)⟩
  cases h.knows _ List.mem_cons_self with
  | entered hwork =>
    exact ⟨records, b, List.prefix_rfl, h.unsettled rfl rfl hledger h.locks (.looked hwork hfound)⟩

/-! ## Making room -/

/-- An expiry that succeeds in the serial archive succeeds in the shared one. -/
theorem expire_shared (h : Shadow timeout a ⟨c, w :: rest⟩ records b) {lock : Nat}
    (hlock : w.stage.lock? = some lock)
    (hledger : c.ledger = b.ledger.retireAll (rest.flatMap Worker.pending)) {p x : Artefact}
    (hp : b.ledger.currentFor w.work.key = some p) {now : Instant} {l : Ledger}
    (hexpire : b.ledger.expire p.id now = (.ok x, l)) :
    c.expire p.id now =
      (.ok x, { c with ledger := l.retireAll (rest.flatMap Worker.pending) }) := by
  obtain ⟨hindex, hget, hpkey, -⟩ := h.quiet.ledger.currentFor_eq_some hp
  have hshared : c.ledger.expire p.id now =
      (.ok x, l.retireAll (rest.flatMap Worker.pending)) := by
    rw [hledger]
    refine Ledger.expire_retireAll ?_ hexpire
    intro r hr
    obtain ⟨hkey, hdue⟩ := h.others_pending hlock r hr
    refine ⟨?_, ?_⟩
    · intro hid
      exact hdue.index_ne h.quiet.ledger (Ne.symm hkey) (hid ▸ hindex)
    · intro y hy
      obtain rfl := Option.some.inj (hget.symm.trans hy)
      rwa [hpkey]
  simp [Archive.expire, hshared]

theorem clear {envelope : Envelope} {body : Bytes} {now : Instant} {lock : Nat}
    {found : Option Artefact}
    (h : Shadow timeout a ⟨c, ⟨.commit envelope body now, .looked lock found⟩ :: rest⟩ records b)
    (answer : Except StorageError StoredBody) :
    Goes timeout a c ⟨.commit envelope body now, .looked lock found⟩ rest records answer := by
  have hledger : c.ledger = b.ledger.retireAll (rest.flatMap Worker.pending) := h.ledger
  have hfound : b.ledger.currentFor envelope.key = found := by
    cases h.knows _ List.mem_cons_self with
    | looked _ hfound => exact hfound
  refine ⟨records, b, List.prefix_rfl, ?_⟩
  cases found with
  | none =>
    have hroom : b.ledger.room envelope.key now = (none, none) := by
      simp [Ledger.room, hfound]
    exact h.unsettled rfl rfl hledger h.locks (.cleared hroom)
  | some p =>
    cases hended : p.hasEnded now with
    | false =>
      have hroom : b.ledger.room envelope.key now = (some p, none) := by
        simp [Ledger.room, hfound, hended]
      simp only [Worker.advance, Section.respond, hended]
      exact h.unsettled rfl rfl hledger h.locks (.cleared hroom)
    | true =>
      -- The shared ledger has the expiry now, the serial one when the commit is through; until
      -- then it is pending.
      have hroom : b.ledger.room envelope.key now = (none, some p.id) := by
        simp [Ledger.room, hfound, hended]
      obtain ⟨x, hexpire⟩ := h.quiet.ledger.expire_current hfound hended
      have hshared := h.expire_shared rfl hledger hfound hexpire
      simp only [Worker.advance, Section.respond, hended, hshared]
      exact h.unsettled rfl rfl rfl h.locks (.cleared hroom)

/-! ## Keeping and committing -/

theorem keep {envelope : Envelope} {body : Bytes} {now : Instant} {lock : Nat}
    {existing : Option Artefact} {expired : Option ArtefactId}
    (h : Shadow timeout a
      ⟨c, ⟨.commit envelope body now, .cleared lock existing expired⟩ :: rest⟩ records b)
    (answer : Except StorageError StoredBody) :
    Goes timeout a c ⟨.commit envelope body now, .cleared lock existing expired⟩ rest records
      answer := by
  have hroom : b.ledger.room envelope.key now = (existing, expired) := by
    cases h.knows _ List.mem_cons_self with
    | cleared hroom => exact hroom
  cases answer with
  | ok stored =>
    exact ⟨records, b, List.prefix_rfl, h.unsettled rfl rfl h.ledger h.locks (.kept hroom)⟩
  | error err =>
    obtain ⟨b', hruns, hquiet, hchange, hids, hledger⟩ :=
      h.quiet.commit_refused timeout body hroom err
    refine ⟨_, b', List.prefix_append _ _,
      h.settle rfl rfl hruns hquiet hchange (h.ids.trans hids.symm) ?_ rfl⟩
    rw [hledger, ← Ledger.retireAll_append]
    exact h.ledger

/-- What the others are ahead with has nothing to do with a commit that has made room: neither its
artefact nor the one that it supersedes is among what they have expired. -/
theorem apart_from_request {envelope : Envelope} {body : Bytes} {now : Instant}
    {stage : Section.Stage} {lock : Nat}
    (h : Shadow timeout a ⟨c, ⟨.commit envelope body now, stage⟩ :: rest⟩ records b)
    (hlock : stage.lock? = some lock) (hids : b.ids.next.2.Distinct) {existing : Option Artefact}
    {expired : Option ArtefactId} (hroom : b.ledger.room envelope.key now = (existing, expired))
    (stored : StoredBody) :
    ∀ r ∈ rest.flatMap Worker.pending,
      r.ApartFrom (b.request envelope stored existing now) := by
  intro r hr
  obtain ⟨hkey, hdue⟩ := h.others_pending hlock r hr
  have hnew : r.id ≠ b.ids.next.1 := by
    intro hid
    obtain ⟨p, hp, hpid⟩ := hdue
    obtain ⟨-, hget, -, -⟩ := h.quiet.ledger.currentFor_eq_some hp
    rw [hpid, hid] at hget
    cases (h.quiet.next_isNew hids).symm.trans hget
  have hclear := h.quiet.ledger.clears_room hroom
  obtain ⟨hcoherent, hindex⟩ := hclear.coherent h.quiet.ledger
  have hdue' := hdue.change (hclear.changesUnder h.quiet.ledger) hkey
  refine ⟨hkey, hnew, ?_⟩
  intro hprior
  exact hdue'.index_ne hcoherent (Ne.symm hkey) (hindex.trans hprior)

theorem store {envelope : Envelope} {body : Bytes} {now : Instant} {lock : Nat}
    {existing : Option Artefact} {expired : Option ArtefactId} {stored : StoredBody}
    (h : Shadow timeout a
      ⟨c, ⟨.commit envelope body now, .kept lock existing expired stored⟩ :: rest⟩ records b)
    (hids : c.ids.next.2.Distinct) (answer : Except StorageError StoredBody) :
    Goes timeout a c ⟨.commit envelope body now, .kept lock existing expired stored⟩ rest records
      answer := by
  have hroom : b.ledger.room envelope.key now = (existing, expired) := by
    cases h.knows _ List.mem_cons_self with
    | kept hroom => exact hroom
  have hsupply : c.ids = b.ids := h.ids
  rw [hsupply] at hids
  obtain ⟨artefact, l', b', hcommit, hruns, hquiet, hchange, hids', hledger⟩ :=
    h.quiet.commit_kept timeout hids body hroom stored
  have hshared : c.ledger.commit (c.request envelope stored existing now) =
      (.ok artefact, l'.retireAll (rest.flatMap Worker.pending)) := by
    have hledger : c.ledger =
        (b.ledger.retireAll (Ledger.retirements envelope.key now expired)).retireAll
          (rest.flatMap Worker.pending) := by
      rw [← Ledger.retireAll_append]
      exact h.ledger
    rw [hledger, Archive.request, hsupply]
    exact Ledger.commit_retireAll (h.apart_from_request rfl hids hroom stored) hcommit
  -- So the shared archive takes the same step as the serial one.
  have hstore : Section.store c lock existing expired stored envelope now =
      ({ c with ids := c.ids.next.2, ledger := l'.retireAll (rest.flatMap Worker.pending) },
        .settled lock (.committed (.ok stored)
          (.ok ⟨artefact, resolve envelope existing now, expired⟩))) := by
    unfold Archive.request at hshared
    simp [Section.store, Archive.commit, hshared]
  unfold Goes
  simp only [Worker.advance, hstore]
  refine ⟨_, b', List.prefix_append _ _, h.settle rfl rfl hruns hquiet hchange ?_ ?_ rfl⟩
  · rw [hids', hsupply]
  · rw [hledger]

/-! ## Expiring a candidate -/

theorem retire {candidate : Artefact} {now : Instant} {lock : Nat} {found : Option Artefact}
    (h : Shadow timeout a ⟨c, ⟨.expiry candidate now, .looked lock found⟩ :: rest⟩ records b)
    (answer : Except StorageError StoredBody) :
    Goes timeout a c ⟨.expiry candidate now, .looked lock found⟩ rest records answer := by
  have hledger : c.ledger = b.ledger.retireAll (rest.flatMap Worker.pending) := h.ledger
  obtain ⟨hfound, hended, x, hx, hsame⟩ : b.ledger.currentFor candidate.key = found ∧
      candidate.hasEnded now = true ∧
      ∃ x, b.ledger.get? candidate.id = some x ∧ x.SameRecord candidate := by
    cases h.knows _ List.mem_cons_self with
    | looked hwork hfound => exact ⟨hfound, hwork⟩
  -- The candidate is left alone unless it is what is current under its key.
  have hpassed : (∀ p, b.ledger.currentFor candidate.key = some p → p.id ≠ candidate.id) →
      ∃ records' b', records <+: records' ∧ Shadow timeout a
        ⟨c, ⟨.expiry candidate now, .settled lock (.expired none)⟩ :: rest⟩ records' b' := by
    intro hgone
    obtain ⟨b', hruns, hquiet, hids, hsameLedger⟩ := h.quiet.expiry_passed timeout now hgone
    have hchange : b.ledger.ChangesUnder candidate.key b'.ledger := hsameLedger ▸ .refl _ _
    exact ⟨_, b', List.prefix_append _ _,
      h.settle rfl rfl hruns hquiet hchange (h.ids.trans hids.symm) (hsameLedger ▸ hledger) rfl⟩
  unfold Goes
  cases found with
  | none => exact hpassed (by simp [hfound])
  | some p =>
    by_cases hid : p.id = candidate.id
    · obtain ⟨-, hget, -, -⟩ := h.quiet.ledger.currentFor_eq_some hfound
      obtain rfl : p = x := Option.some.inj (hget.symm.trans (hid ▸ hx))
      have hpended : p.hasEnded now = true := by
        rwa [Artefact.hasEnded, ← hsame.envelope]
      obtain ⟨y, l', b', hexpire, hruns, hquiet, hchange, hids, hafter⟩ :=
        h.quiet.expiry_done timeout hfound hid hpended
      have hshared := h.expire_shared rfl hledger hfound (hid ▸ hexpire)
      rw [hid] at hshared
      simp only [Worker.advance, Section.respond, hid, if_true, hshared]
      refine ⟨_, b', List.prefix_append _ _,
        h.settle rfl rfl hruns hquiet hchange (h.ids.trans hids.symm) ?_ rfl⟩
      rw [hafter]
    · simp only [Worker.advance, Section.respond, hid, if_false]
      refine hpassed ?_
      intro q hq
      obtain rfl := Option.some.inj (hfound.symm.trans hq)
      exact hid

/-! ## Leaving -/

theorem leave {work : Section} {lock : Nat} {outcome : Section.Outcome}
    (h : Shadow timeout a ⟨c, ⟨work, .settled lock outcome⟩ :: rest⟩ records b)
    (answer : Except StorageError StoredBody) :
    Goes timeout a c ⟨work, .settled lock outcome⟩ rest records answer := by
  have hheld : c.locks.HeldBy (⟨work.key, lock⟩ :: rest.flatMap Worker.holds) := h.locks
  exact ⟨records, b, List.prefix_rfl, h.unsettled rfl rfl h.ledger hheld.leave .left⟩

/-- Every step of a worker leaves a serial archive beside the shared one. -/
theorem goes (h : Shadow timeout a ⟨c, w :: rest⟩ records b)
    (answer : Except StorageError StoredBody) (hids : (w.advance answer c).1.ids.Distinct) :
    Goes timeout a c w rest records answer := by
  cases h.knows w List.mem_cons_self with
  | asking _ => exact h.ask answer
  | refused => exact ⟨records, b, List.prefix_rfl, h⟩
  | entered _ => exact h.look answer
  | @looked work lock found _ _ =>
    cases work with
    | commit envelope body now => exact h.clear answer
    | expiry candidate now => exact h.retire answer
  | cleared _ => exact h.keep answer
  | kept _ =>
    refine h.store ?_ answer
    rwa [← Section.store_ids]
  | settled => exact h.leave answer
  | left => exact ⟨records, b, List.prefix_rfl, h⟩

/-- In the serial archive that section is run next which comes to its outcome with the step. -/
theorem advance (h : Shadow timeout a ⟨c, w :: rest⟩ records b)
    (answer : Except StorageError StoredBody) (hids : (w.advance answer c).1.ids.Distinct) :
    ∃ b', Shadow timeout a ⟨(w.advance answer c).1, ⟨w.work, (w.advance answer c).2⟩ :: rest⟩
      (records ++ w.settles answer c) b' := by
  obtain ⟨_, b', ⟨more, rfl⟩, hgoes⟩ := h.goes answer hids
  -- Both are what the workers have come to, so what was added is the same but for its order.
  have hbefore : records.Perm (w.done ++ rest.flatMap Worker.done) := h.done
  have hafter : (records ++ more).Perm
      ((w.done ++ w.settles answer c) ++ rest.flatMap Worker.done) := by
    rw [← w.done_advance answer c]
    exact hgoes.done
  have hadded : (records ++ more).Perm (records ++ w.settles answer c) := by
    refine hafter.trans ?_
    rw [List.append_assoc]
    refine (List.perm_append_comm.append_left w.done).trans ?_
    rw [← List.append_assoc]
    exact hbefore.symm.append_right _
  have hmore : more.Perm (w.settles answer c) := (List.perm_append_left_iff records).mp hadded
  refine ⟨b', ?_⟩
  rcases w.settles_one answer c with hnone | ⟨record, hone⟩
  · rw [hnone] at hmore ⊢
    exact hmore.eq_nil ▸ hgoes
  · rw [hone] at hmore ⊢
    exact List.perm_singleton.mp hmore ▸ hgoes

/-! ## Runs -/

/-- Workers who have not asked for their locks yet may come up at any time. -/
theorem arrive {s : Traffic ε} (h : Shadow timeout a s records b) {new : List Worker}
    (hnew : ∀ w ∈ new, ∃ work, w = ⟨work, .asking⟩ ∧ work.Known b.ledger) :
    Shadow timeout a ⟨s.archive, s.workers ++ new⟩ records b := by
  have hnone : ∀ {α : Type} (f : Worker → List α), (∀ work, f ⟨work, .asking⟩ = []) →
      (s.workers ++ new).flatMap f = s.workers.flatMap f := by
    intro α f hf
    have hempty : new.flatMap f = [] := by
      rw [List.flatMap_eq_nil_iff]
      intro w hw
      obtain ⟨work, rfl, -⟩ := hnew w hw
      exact hf work
    rw [List.flatMap_append, hempty, List.append_nil]
  refine ⟨h.serial, ?_, h.quiet, h.ids, ?_, ?_, ?_⟩
  · exact (hnone Worker.done (fun _ => rfl)).symm ▸ h.done
  · exact (hnone Worker.pending (fun _ => rfl)).symm ▸ h.ledger
  · exact (hnone Worker.holds (fun _ => rfl)).symm ▸ h.locks
  · intro w hw
    rcases List.mem_append.mp hw with hw | hw
    · exact h.knows w hw
    · obtain ⟨work, rfl, hwork⟩ := hnew w hw
      exact .asking hwork

/-- The candidates of a sweep are artefacts of the serial archive, whose windows have ended. -/
theorem known_of_sweeper {s : Traffic ε} (h : Shadow timeout a s records b) {now : Instant}
    (hw : w ∈ sweepers s.archive now) : ∃ work, w = ⟨work, .asking⟩ ∧ work.Known b.ledger := by
  obtain ⟨candidate, hcandidate, rfl⟩ := List.mem_map.mp hw
  obtain ⟨hcurrent, hended⟩ := List.mem_filter.mp hcandidate
  obtain ⟨id, -, hget⟩ := List.mem_filterMap.mp (List.mem_mergeSort.mp hcurrent)
  rw [h.ledger] at hget
  obtain ⟨x, hx, hsame⟩ := Ledger.record_of_retireAll hget
  have hid : candidate.id = id := hsame.id.trans (h.quiet.ledger.ids hx)
  exact ⟨_, rfl, hended, x, hid ▸ hx, hsame⟩

/-- Whatever happens next, there is a serial archive beside the shared one afterwards. -/
theorem move {s : Traffic ε} (h : Shadow timeout a s records b) (m : Move ε)
    (hids : (s.move m).archive.ids.Distinct) :
    ∃ b, Shadow timeout a (s.move m) (records ++ s.settles m) b := by
  have hnobody : ∀ {s' : Traffic ε}, Shadow timeout a s' records b →
      ∃ b, Shadow timeout a s' (records ++ []) b := fun h' => ⟨b, by rwa [List.append_nil]⟩
  cases m with
  | begin envelope body now =>
    refine hnobody (h.arrive ?_)
    intro w hw
    exact ⟨_, List.mem_singleton.mp hw, trivial⟩
  | sweep now => exact hnobody (h.arrive (fun w hw => h.known_of_sweeper hw))
  | aside payloads notes =>
    exact hnobody ⟨h.serial, h.done, h.quiet, h.ids, h.ledger, h.locks, h.knows⟩
  | advance i answer =>
    unfold Traffic.move Traffic.settles at *
    dsimp only at hids ⊢
    cases hw : s.workers[i]? with
    | none => exact hnobody h
    | some w =>
      rw [hw] at hids
      obtain ⟨hlt, hget⟩ := List.getElem?_eq_some_iff.mp hw
      -- The worker is brought to the front, takes its step, and goes back to its place.
      have hfront : s.workers.Perm (w :: s.workers.eraseIdx i) :=
        hget ▸ (List.getElem_cons_eraseIdx_perm hlt).symm
      obtain ⟨b', hgoes⟩ := (h.perm hfront).advance answer hids
      exact ⟨b', hgoes.perm (List.set_perm_cons_eraseIdx hlt _).symm⟩

/-- So it is after every run. -/
theorem run {s : Traffic ε} (h : Shadow timeout a s records b) (moves : List (Move ε))
    (hids : (s.run moves).archive.ids.Distinct) :
    ∃ b, Shadow timeout a (s.run moves) (records ++ s.settled moves) b := by
  induction moves generalizing s records b with
  | nil => exact ⟨b, by rwa [Traffic.settled, List.append_nil]⟩
  | cons m moves ih =>
    obtain ⟨b', h'⟩ := h.move m (((s.move m).run_ids moves).distinct hids)
    rw [Traffic.settled, ← List.append_assoc]
    exact ih h' hids

theorem start (timeout : Nat) (payloads : PayloadStore) (draw : Nat → ArtefactId) (notes : ε) :
    Shadow timeout (.start payloads draw notes) (Traffic.start (.start payloads draw notes)) []
      (.start payloads draw notes) where
  serial := .none
  done := .nil
  quiet := Archive.quiet_start payloads draw notes
  ids := rfl
  ledger := rfl
  locks := KeyLocks.heldBy_empty
  knows := fun _ hw => absurd hw List.not_mem_nil

end Traffic.Shadow

/-! ## What a run comes to -/

namespace Traffic

/-- Somebody has the lock of a key. -/
def Holds (s : Traffic ε) (key : IdentityKey) : Prop := ∃ w ∈ s.workers, ∃ g ∈ w.holds, g.key = key

theorem holds_iff (s : Traffic ε) (key : IdentityKey) :
    s.Holds key ↔ key ∈ (s.workers.flatMap Worker.holds).map LockHandle.key := by
  simp only [Holds, List.mem_map, List.mem_flatMap]
  constructor
  · rintro ⟨w, hw, g, hg, hkey⟩
    exact ⟨g, ⟨w, hw, hg⟩, hkey⟩
  · rintro ⟨g, ⟨w, hw, hg⟩, hkey⟩
    exact ⟨w, hw, g, hg, hkey⟩

/-- Critical sections have come to what they come to one after another, in the order of the
records. -/
structure Serialises (timeout : Nat) (a : Archive ε) (s : Traffic ε)
    (records : List Section.Record) : Prop where
  /-- Under a lock the ledger has never refused a change. -/
  neverFails : ∀ w ∈ s.workers, w.hasFailed = false
  /-- Whoever asks for a lock that somebody has is refused and changes nothing. -/
  refused : ∀ w ∈ s.workers, w.stage = .asking → s.Holds w.work.key →
    ∀ answer, w.advance answer s.archive = (s.archive, .refused)
  /-- Whoever asks for a lock that nobody has gets it. -/
  admitted : ∀ w ∈ s.workers, w.stage = .asking → ¬ s.Holds w.work.key →
    ∀ answer, ∃ locks lock, w.advance answer s.archive = ({ s.archive with locks }, .entered lock)
  /-- The work of the engine under a lock that somebody has is not done, and nothing is changed. -/
  contended : ∀ {α : Type} (key : IdentityKey) (timedOut : α) (act : Archive ε → α × Archive ε),
    s.Holds key → Engine.withLock s.archive key timedOut act = (timedOut, s.archive)
  /-- The records are those of the workers who got their locks and have come to something. -/
  all : records.Perm (s.workers.flatMap Worker.done)
  /-- When all locks are given back, the ledger is that of an archive in which the engine has run
  the sections of the records one after another, with the same outcomes. -/
  serial : (∀ key, ¬ s.Holds key) → ∃ b, OneByOne timeout a records b ∧
    s.archive.ledger = b.ledger ∧ s.archive.ids = b.ids

theorem Shadow.serialises {timeout : Nat} {a b : Archive ε} {s : Traffic ε}
    {records : List Section.Record} (h : Shadow timeout a s records b) :
    s.Serialises timeout a records where
  neverFails := by
    intro w hw
    cases h.knows w hw <;> rfl
  refused := by
    rintro ⟨work, stage⟩ - rfl hholds answer
    obtain ⟨htry, hrelease⟩ := h.locks.refuse ((s.holds_iff _).mp hholds)
    simp only [Worker.advance, htry, hrelease]
  admitted := by
    rintro ⟨work, stage⟩ - rfl hfree answer
    obtain ⟨locks, htry, -⟩ := h.locks.admit (fun hkey => hfree ((s.holds_iff _).mpr hkey))
    exact ⟨locks, _, by simp only [Worker.advance, htry]; rfl⟩
  contended := by
    intro α key timedOut act hholds
    obtain ⟨htry, hrelease⟩ := h.locks.refuse ((s.holds_iff key).mp hholds)
    simp only [Engine.withLock, htry, hrelease]
  all := h.done
  serial := by
    intro hfree
    refine ⟨b, h.serial, ?_, h.ids⟩
    have hnone : s.workers.flatMap Worker.pending = [] := by
      rw [List.flatMap_eq_nil_iff]
      intro w hw
      refine List.eq_nil_iff_forall_not_mem.mpr ?_
      intro r hr
      obtain ⟨-, g, hg, hkey⟩ := (h.knows w hw).pending hr
      exact hfree r.key ⟨w, hw, g, hg, hkey⟩
    rw [h.ledger, hnone]
    rfl

/-- Critical sections serialise. However the steps of commits and sweeps fall between each other,
no change to the ledger fails under a lock, whoever does not get a lock changes nothing, and in the
end the ledger is as if those who got their locks had come one after another, in the order in which
they came to their outcomes. Calls from inside other calls are no exception: what they do, runs do
as well. And a sweep of the engine is what its workers come to when they take turns. -/
theorem critical_sections_serialise (timeout : Nat) (payloads : PayloadStore)
    (draw : Nat → ArtefactId) (notes : ε) (moves : List (Move ε))
    (hids : ((start (.start payloads draw notes)).run moves).archive.ids.Distinct) :
    ((start (.start payloads draw notes)).run moves).Serialises timeout
        (.start payloads draw notes) ((start (.start payloads draw notes)).settled moves) ∧
      ((start (.start payloads draw notes)).run moves).Covers := by
  obtain ⟨b, hshadow⟩ := (Shadow.start timeout payloads draw notes).run moves hids
  exact ⟨hshadow.serialises, covers _⟩

/-! Two commits for one key and one for another, in each other's way; then the window of the first
has ended, and a commit makes room for a body that is refused. -/

namespace Example

def envelope : String → Envelope := Ledger.Example.envelope

def later : Instant := (Instant.ofSeconds? 1).getD .epoch

def moves : List (Move Unit) :=
  let step (i : Nat) : Move Unit := .advance i (.ok default)
  [.begin (envelope "123") [123, 125] .epoch, .begin (envelope "9") [123, 125] .epoch,
    .begin (envelope "123") [91, 93] .epoch, step 0, step 2, step 0, step 1, step 1, step 0, step 0,
    step 1, step 1, step 1, step 0, step 1, step 0, .begin (envelope "123") [91, 93] later,
    step 3, step 3, step 3, .advance 3 (.error default), step 3]

/-- Nobody has called yet. -/
def before : Traffic Unit := start (.start .empty .ofRandom ())

/-- The archive and the workers in the end. -/
def after : Traffic Unit := before.run moves

end Example

theorem two_keys_serialise :
    Example.after.archive.ids.Distinct ∧ (∀ key, ¬ Example.after.Holds key) ∧
      Example.after.workers.map (fun w => w.stage.outcome?.isSome) =
        [true, true, false, true] ∧
      (Example.before.settled Example.moves).map (fun record => record.1.key) =
        [(Example.envelope "9").key, (Example.envelope "123").key, (Example.envelope "123").key] ∧
      ∃ b, OneByOne 100 Example.before.archive (Example.before.settled Example.moves) b ∧
        Example.after.archive.ledger = b.ledger := by
  have hids : Example.after.archive.ids.Distinct :=
    Engine.Example.distinct_of_two rfl (by decide +kernel)
  have hheld : Example.after.workers.flatMap Worker.holds = [] := by decide +kernel
  have hfree : ∀ key, ¬ Example.after.Holds key := by
    intro key hholds
    rw [holds_iff, hheld] at hholds
    cases hholds
  obtain ⟨hserialises, -⟩ :=
    critical_sections_serialise 100 .empty .ofRandom () Example.moves hids
  obtain ⟨b, honebyone, hledger, -⟩ := hserialises.serial hfree
  exact ⟨hids, hfree, by decide +kernel, by decide +kernel, b, honebyone, hledger⟩

end Traffic

end CauseLists
