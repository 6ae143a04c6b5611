-- What the locks of keys guarantee. However many visits there are and however their steps fall
-- between each other, nobody is inside under a key together with somebody else, and a key that
-- nobody visits has no lock. Whatever engines do, called one after another and from inside each
-- other, they do in such visits, each of which is over when its call is.
import CauseLists.Proofs.Ledger.Runs
import CauseLists.Proofs.Supersession.Nesting
import CauseLists.Proofs.Supersession.Visits

namespace CauseLists

namespace LockRoom

/-! ## What holds in order -/

section

variable {κ : Type} [DecidableEq κ]

/-- The locks do for those who visit them what they are there for. -/
structure Guards (s : LockRoom κ) : Prop where
  /-- All handles to the lock of a key are to the lock that it has now, which counts them. -/
  present : ∀ v ∈ s.visits, v.hasHandle = true → ∃ lock,
    Table.get? v.key s.locks.numbers = some v.handle.number ∧
    Table.get? v.handle.number s.locks.locks = some lock ∧
    lock.handles = s.visits.countP (fun w => w.hasHandle && w.key = v.key)
  /-- Those who are inside are there under different keys. -/
  exclusive : ((s.visits.filter Visit.isInside).map Visit.key).Nodup
  /-- Whoever wants a lock does not get it exactly while somebody else is inside. -/
  refusal : ∀ v ∈ s.visits, v.stage = .waiting →
    (s.locks.tryLock v.handle = none ↔ ∃ w ∈ s.visits, w.isInside = true ∧ w.key = v.key)
  /-- A key that nobody visits has no lock. -/
  nothingLeft : ∀ key, (∀ v ∈ s.visits, v.key = key → v.stage = .ended) →
    Table.get? key s.locks.numbers = none
  /-- There are no locks but those that the keys have. -/
  noOthers : ∀ number lock, Table.get? number s.locks.locks = some lock →
    ∃ key, Table.get? key s.locks.numbers = some number

namespace Orderly

variable {s : LockRoom κ}

theorem inside_le_one (h : s.Orderly) (key : κ) :
    s.visits.countP (fun v => v.isInside && v.key = key) ≤ 1 := by
  have hlock : ∃ number lock, s.locks.slot? key = none ∧ lock = ⟨0, false⟩ ∨
      s.locks.slot? key = some (number, lock) := by
    rcases s.locks.slot? key with _ | ⟨number, lock⟩
    · exact ⟨0, ⟨0, false⟩, .inl ⟨rfl, rfl⟩⟩
    · exact ⟨number, lock, .inr rfl⟩
  obtain ⟨number, lock, hlock⟩ := hlock
  obtain ⟨-, hheld, -⟩ := (h.serves key).counts hlock
  rw [List.countP_filter] at hheld
  rw [← hheld]
  exact Bool.toNat_le _

theorem guards (h : s.Orderly) : s.Guards where
  present := by
    intro v hv hhandle
    have hmine : v ∈ s.visits.filter (fun w => w.key = v.key) :=
      List.mem_filter.mpr ⟨hv, decide_eq_true rfl⟩
    obtain ⟨lock, hslot⟩ := (h.serves v.key).known v hmine hhandle
    obtain ⟨hnumber, hlock⟩ := KeyLocks.slot?_eq_some_iff.mp hslot
    refine ⟨lock, hnumber, hlock, ?_⟩
    rw [(h.serves v.key).counted hslot, List.countP_filter]
  exclusive := by
    rw [List.nodup_iff_count_le_one]
    intro key
    rw [List.count_eq_countP, List.countP_map, List.countP_filter]
    have hsame : s.visits.countP (fun v => ((· == key) ∘ Visit.key) v && v.isInside) =
        s.visits.countP (fun v => v.isInside && v.key = key) := by
      apply List.countP_congr
      intro v hv
      simp [and_comm]
    exact hsame ▸ h.inside_le_one key
  refusal := by
    rintro ⟨g, stage⟩ hv rfl
    have hmine : ⟨g, .waiting⟩ ∈ s.visits.filter (fun w => w.key = g.key) :=
      List.mem_filter.mpr ⟨hv, decide_eq_true rfl⟩
    obtain ⟨lock, hslot⟩ := (h.serves g.key).known _ hmine rfl
    have hheld := (h.serves g.key).held hslot
    rw [List.countP_filter] at hheld
    rw [KeyLocks.tryLock_of_slot? hslot]
    have hinside : lock.isHeld = true ↔
        ∃ w ∈ s.visits, (w.isInside && decide (w.key = g.key)) = true := by
      rw [← List.countP_pos_iff, ← hheld]
      cases lock.isHeld <;> simp
    change _ ↔ ∃ w ∈ s.visits, w.isInside = true ∧ w.key = g.key
    simpa using hinside
  nothingLeft := by
    intro key hended
    rw [← h.proper.slot?_eq_none_iff]
    refine (h.serves key).none_of_ended ?_
    intro v hv
    obtain ⟨hv, hkey⟩ := List.mem_filter.mp hv
    exact hended v hv (of_decide_eq_true hkey)
  noOthers := fun number lock hlock => h.proper.kept hlock

end Orderly

/-! ## Visits among others -/

/-- Some visits lead from locks to others, whoever else is there, and are over then. -/
def Leads (l l' : KeyLocks κ) : Prop :=
  ∀ visits, ∃ moves more, run ⟨l, visits⟩ moves = ⟨l', visits ++ more⟩ ∧
    ∀ v ∈ more, v.stage = .ended

/-- Some visits, which are over in the end, lead a visit from one stage to another, whoever else is
there. -/
def Passes (l : KeyLocks κ) (v : Visit κ) (l' : KeyLocks κ) (stage : Visit.Stage) : Prop :=
  ∀ before after, ∃ moves more, run ⟨l, before ++ v :: after⟩ moves =
    ⟨l', before ++ { v with stage } :: (after ++ more)⟩ ∧ ∀ w ∈ more, w.stage = .ended

variable {l l' l'' : KeyLocks κ} {v : Visit κ} {stage stage' : Visit.Stage}

theorem Leads.refl (l : KeyLocks κ) : Leads l l :=
  fun visits => ⟨[], [], by simp [run], by simp⟩

theorem Leads.trans (h : Leads l l') (h' : Leads l' l'') : Leads l l'' := by
  intro visits
  obtain ⟨moves, more, hrun, hended⟩ := h visits
  obtain ⟨moves', more', hrun', hended'⟩ := h' (visits ++ more)
  refine ⟨moves ++ moves', more ++ more', ?_, ?_⟩
  · rw [run_append, hrun, hrun', List.append_assoc]
  · intro v hv
    exact (List.mem_append.mp hv).elim (hended v) (hended' v)

theorem Passes.trans (h : Passes l v l' stage) (h' : Passes l' { v with stage } l'' stage') :
    Passes l v l'' stage' := by
  intro before after
  obtain ⟨moves, more, hrun, hended⟩ := h before after
  obtain ⟨moves', more', hrun', hended'⟩ := h' before (after ++ more)
  refine ⟨moves ++ moves', more ++ more', ?_, ?_⟩
  · rw [run_append, hrun, hrun', List.append_assoc]
  · intro w hw
    exact (List.mem_append.mp hw).elim (hended w) (hended' w)

/-- The next step of a visit. -/
theorem passes_advance (patient : Bool) (h : v.advance patient l = (l', stage)) :
    Passes l v l' stage := by
  intro before after
  refine ⟨[.advance before.length patient], [], ?_, by simp⟩
  simp [run, move, h]

/-- What goes on during a visit. -/
theorem Leads.passes (h : Leads l l') (v : Visit κ) : Passes l v l' v.stage := by
  intro before after
  obtain ⟨moves, more, hrun, hended⟩ := h (before ++ v :: after)
  exact ⟨moves, more, by rw [hrun, List.append_assoc, List.cons_append], hended⟩

/-- A visit from its beginning to its end. -/
theorem Passes.leads (key : κ)
    (h : Passes (l.handle key).2 ⟨(l.handle key).1, .waiting⟩ l' .ended) : Leads l l' := by
  intro visits
  obtain ⟨moves, more, hrun, hended⟩ := h visits []
  refine ⟨.come key :: moves, ⟨(l.handle key).1, .ended⟩ :: more, ?_, ?_⟩
  · exact hrun
  · intro v hv
    rcases List.mem_cons.mp hv with rfl | hv
    · rfl
    · exact hended v hv

end

/-! ## Calls of engines -/

section

variable {ε : Type}

/-- What the engine does under a lock is done in a visit. -/
theorem leads_withLock {α : Type} (a : Archive ε) (key : IdentityKey) (timedOut : α)
    {act : Archive ε → α × Archive ε} (hact : ∀ a, Leads a.locks (act a).2.locks) :
    Leads a.locks (Engine.withLock a key timedOut act).2.locks := by
  have hgo : ∀ l : KeyLocks IdentityKey,
      Passes l ⟨(a.locks.handle key).1, .leaving⟩ (l.release (a.locks.handle key).1) .ended := by
    intro l
    exact (passes_advance false rfl).trans (passes_advance false rfl)
  apply Passes.leads key
  unfold Engine.withLock
  dsimp only
  cases htry : (a.locks.handle key).2.tryLock (a.locks.handle key).1 with
  | none =>
    have hgiveUp : Passes (a.locks.handle key).2 ⟨(a.locks.handle key).1, .waiting⟩
        (a.locks.handle key).2 .leaving :=
      passes_advance false (by simp [Visit.advance, htry])
    exact hgiveUp.trans (hgo _)
  | some locks =>
    have henter : Passes (a.locks.handle key).2 ⟨(a.locks.handle key).1, .waiting⟩ locks .inside :=
      passes_advance false (by simp only [Visit.advance, htry])
    have hwork := henter.trans ((hact { a with locks }).passes _)
    exact (hwork.trans (passes_advance false rfl)).trans (hgo _)

theorem locks_commit (a : Archive ε) (c : Commit) : (a.commit c).2.locks = a.locks :=
  rfl

theorem locks_expire (a : Archive ε) (id : ArtefactId) (now : Instant) :
    (a.expire id now).2.locks = a.locks := rfl

theorem locks_clearEnded (a : Archive ε) (key : IdentityKey) (now : Instant) :
    (Engine.clearEnded a key now).2.locks = a.locks := by
  unfold Engine.clearEnded
  split
  · rfl
  · rename_i existing _
    have hexpire := locks_expire a existing.id now
    split
    · split <;> simp_all
    · rfl

theorem locks_expireIfCurrent (a : Archive ε) (key : IdentityKey) (id : ArtefactId)
    (now : Instant) : (Engine.expireIfCurrent a key id now).2.locks = a.locks := by
  unfold Engine.expireIfCurrent
  have hexpire := locks_expire a id now
  split
  · rfl
  · split
    · split <;> simp_all
    · rfl

/-- Under its lock a commit leaves the locks alone, but for what goes on while its body is kept. -/
theorem leads_commitLocked {e : Engine ε} (hcommit : e.stores.commit = Archive.commit)
    (hpersist : ∀ a envelope body, Leads a.locks (e.stores.persist a envelope body).2.locks)
    (a : Archive ε) (envelope : Envelope) (body : Bytes) (now : Instant) :
    Leads a.locks (e.commitLocked a envelope body now).2.locks := by
  have hclear := locks_clearEnded a envelope.key now
  unfold Engine.commitLocked
  rw [hcommit]
  generalize Engine.clearEnded a envelope.key now = cleared at hclear ⊢
  obtain ⟨result, b⟩ := cleared
  have hkeep := hpersist b envelope body
  cases result with
  | error err => exact hclear ▸ .refl _
  | ok found =>
    dsimp only at hclear ⊢
    rw [← hclear]
    generalize e.stores.persist b envelope body = kept at hkeep ⊢
    obtain ⟨answer, c⟩ := kept
    cases answer with
    | error err => exact hkeep
    | ok stored =>
      dsimp only at hkeep ⊢
      have hstore := locks_commit { c with ids := c.ids.next.2 }
        ⟨.new c.ids.next.1 envelope stored now, (resolve envelope found.1 now).prior, now⟩
      split <;> simp_all

theorem leads_expireEach (now : Instant) (candidates : List Artefact) (a : Archive ε) :
    Leads a.locks (Engine.expireEach a now candidates).2.locks := by
  induction candidates generalizing a with
  | nil => exact .refl _
  | cons candidate rest ih =>
    have hfirst : Leads a.locks (Engine.withLock a candidate.key (.ok none)
        (fun a => Engine.expireIfCurrent a candidate.key candidate.id now)).2.locks :=
      leads_withLock _ _ _ fun a =>
        (locks_expireIfCurrent a candidate.key candidate.id now).symm ▸ .refl _
    unfold Engine.expireEach
    generalize Engine.withLock a candidate.key (.ok none)
      (fun a => Engine.expireIfCurrent a candidate.key candidate.id now) = done at hfirst ⊢
    obtain ⟨result, b⟩ := done
    cases result with
    | error err => exact hfirst
    | ok expired =>
      have hrest := hfirst.trans (ih b)
      dsimp only
      split <;> simp_all

/-- Whatever engines do, they do in visits. -/
theorem leads_of_calls {a b : Archive ε} (h : Engine.Calls a b) : Leads a.locks b.locks := by
  induction h with
  | none a => exact .refl _
  | aside _ payloads notes ih => exact ih
  | commit _ e hcommit _ envelope body now ih ihpersist =>
    exact ih.trans (leads_withLock _ _ _ fun a =>
      leads_commitLocked hcommit ihpersist a envelope body now)
  | sweep _ now ih => exact ih.trans (leads_expireEach now _ _)

end

/-! ## The guarantee -/

/-- Key locks exclude and do not leak. However the steps of visits fall between each other, all who
have a handle for a key have it to the lock that the key has, no two of them are inside at a time,
and a key that nobody visits has no lock. Calls of engines, one after another and from inside each
other, are made of such visits, and when a call is over its visits are. -/
theorem key_locks_exclude_and_do_not_leak {κ : Type} [DecidableEq κ] (moves : List (Move κ)) :
    ((empty : LockRoom κ).run moves).Guards ∧
      ∀ {ε : Type} {a b : Archive ε}, Engine.Calls a b → ∀ visits, ∃ moves more,
        run ⟨a.locks, visits⟩ moves = ⟨b.locks, visits ++ more⟩ ∧ ∀ v ∈ more, v.stage = .ended :=
  ⟨(Orderly.empty.run moves).guards, leads_of_calls⟩

/-! Three visits for one key. The first two go, and the second takes the lock away with it before
the first one looks; the third gets a new lock, which the first one leaves alone. -/

namespace Example

def moves : List (Move String) :=
  let step (i : Nat) : Move String := .advance i false
  [.come "123", .come "123", step 0, step 1, step 0, step 0, step 1, step 1, .come "123", step 0]

/-- The room when the first two visits are over. -/
def room : LockRoom String := empty.run moves

/-- A payload store that commits something itself before it keeps a body. -/
def nested : Engine Unit where
  stores :=
    { persist := fun a envelope body =>
        let (_, a) := Engine.commit ⟨.direct, 100⟩ a (Ledger.Example.envelope "9") [91, 93] .epoch
        a.persist envelope body
      commit := Archive.commit }
  lockTimeout := 100

def before : Archive Unit := .start .empty .ofRandom ()

/-- The archive after a commit with another one inside. -/
def after : Archive Unit :=
  (nested.commit before (Ledger.Example.envelope "123") [123, 125] .epoch).2

theorem calls_after : Engine.Calls before after := by
  have hkeep : ∀ (a b : Archive Unit) envelope body, Engine.Calls a b →
      Engine.Calls a (b.persist envelope body).2 := by
    intro a b envelope body h
    exact .aside h (b.persist envelope body).2.payloads (b.persist envelope body).2.notes
  refine .commit (.none _) nested rfl ?_ _ _ _
  intro a envelope body
  exact hkeep _ _ _ _ (.commit (.none a) ⟨.direct, 100⟩ rfl
    (fun a envelope body => hkeep a a envelope body (.none a)) _ _ _)

end Example

theorem a_new_lock_outlives_an_old_visit :
    Example.room.visits.map Visit.stage = [.ended, .ended, .waiting] ∧
      Example.room.locks.numbers = [("123", 1)] ∧ Example.room.Guards ∧
      Engine.Calls Example.before Example.after ∧ Example.after.ledger.artefacts.length = 2 ∧
      Example.after.locks.numbers = [] ∧
      ∃ moves more, run empty moves = ⟨Example.after.locks, more⟩ ∧
        ∀ v ∈ more, v.stage = .ended := by
  obtain ⟨hguards, hcalls⟩ := key_locks_exclude_and_do_not_leak Example.moves
  obtain ⟨moves, more, hrun, hended⟩ := hcalls Example.calls_after []
  exact ⟨by decide, by decide, hguards, Example.calls_after, by decide +kernel, by decide +kernel,
    moves, more, hrun, hended⟩

end LockRoom

end CauseLists
