-- Calls inside calls. While a commit has its body kept, the payload store may call the engine
-- again, and what it calls may do so again, to any depth. All of it is a run: each call is a
-- worker, and a call inside another takes its steps while the other waits for its body to be kept.
import CauseLists.Proofs.Supersession.Turns

namespace CauseLists

variable {ε : Type}

/-- Calls of engines, one after another, lead from an archive to another one. The payload store that
keeps the body of a commit may call engines in turn. In between the payload store works and the
stores note things down. -/
inductive Engine.Calls : Archive ε → Archive ε → Prop
  | none (a : Archive ε) : Calls a a
  | aside {a b : Archive ε} (h : Calls a b) (payloads : PayloadStore) (notes : ε) :
    Calls a { b with payloads, notes }
  | commit {a b : Archive ε} (h : Calls a b) (e : Engine ε)
    (hcommit : e.stores.commit = Archive.commit)
    (hpersist : ∀ a envelope body, Calls a (e.stores.persist a envelope body).2)
    (envelope : Envelope) (body : Bytes) (now : Instant) :
    Calls a (e.commit b envelope body now).2
  | sweep {a b : Archive ε} (h : Calls a b) (now : Instant) : Calls a (expireDue b now).2

/-- An engine whose payload store may call engines, and whose artefact store is the ledger. -/
structure Engine.Nests (e : Engine ε) : Prop where
  commit : e.stores.commit = Archive.commit
  persist : ∀ a envelope body, Calls a (e.stores.persist a envelope body).2

namespace Traffic

/-! ## One worker among others -/

/-- Some run leads from an archive to another one, whoever is there already, and some workers come
up in it. -/
def Leads (a b : Archive ε) (more : List Worker) : Prop :=
  ∀ workers, ∃ moves, run ⟨a, workers⟩ moves = ⟨b, workers ++ more⟩

/-- Some run leads a worker from one stage to another, whoever else is there. -/
def Passes (work : Section) (a : Archive ε) (stage : Section.Stage) (b : Archive ε)
    (stage' : Section.Stage) (more : List Worker) : Prop :=
  ∀ before after, ∃ moves, run ⟨a, before ++ ⟨work, stage⟩ :: after⟩ moves =
    ⟨b, before ++ ⟨work, stage'⟩ :: (after ++ more)⟩

variable {work : Section} {a b c : Archive ε} {stage stage' stage'' : Section.Stage}
  {more more' : List Worker}

theorem Leads.refl (a : Archive ε) : Leads a a [] := fun workers => ⟨[], by simp [run]⟩

theorem Leads.trans (h : Leads a b more) (h' : Leads b c more') : Leads a c (more ++ more') := by
  intro workers
  obtain ⟨moves, hrun⟩ := h workers
  obtain ⟨moves', hrun'⟩ := h' (workers ++ more)
  refine ⟨moves ++ moves', ?_⟩
  rw [run_append, hrun, hrun', List.append_assoc]

theorem Leads.aside (a : Archive ε) (payloads : PayloadStore) (notes : ε) :
    Leads a { a with payloads, notes } [] :=
  fun _ => ⟨[.aside payloads notes], by simp [run, move]⟩

theorem Passes.trans (h : Passes work a stage b stage' more)
    (h' : Passes work b stage' c stage'' more') :
    Passes work a stage c stage'' (more ++ more') := by
  intro before after
  obtain ⟨moves, hrun⟩ := h before after
  obtain ⟨moves', hrun'⟩ := h' before (after ++ more)
  refine ⟨moves ++ moves', ?_⟩
  rw [run_append, hrun, hrun', List.append_assoc]

/-- One step of the worker. -/
theorem passes_advance (answer : Except StorageError StoredBody)
    (h : Worker.advance ⟨work, stage⟩ answer a = (b, stage')) :
    Passes work a stage b stage' [] := by
  intro before after
  refine ⟨[.advance before.length answer], ?_⟩
  simp [run, move, h]

/-- What goes on while the worker waits. -/
theorem Leads.passes (h : Leads a b more) (work : Section) (stage : Section.Stage) :
    Passes work a stage b stage more := by
  intro before after
  obtain ⟨moves, hrun⟩ := h (before ++ ⟨work, stage⟩ :: after)
  exact ⟨moves, by rw [hrun, List.append_assoc, List.cons_append]⟩

/-! ## Calls as runs -/

/-- The answer to a commit whose worker has come to the end. -/
inductive Answers (timeout : Nat) (key : IdentityKey) :
    Section.Stage → Except CommitError Committed → Prop
  | refused : Answers timeout key .refused (.error (.conflict key.text (.lockTimeout timeout)))
  | left (kept : Except StorageError StoredBody) (answer : Except CommitError Committed) :
    Answers timeout key (.left (.committed kept answer)) answer
  | aborted (err : LedgerError) : Answers timeout key (.aborted err) (.error (.ofLedger err))

/-- A commit that looks at what is current makes room as the engine does. -/
theorem respond_of_clearEnded (a : Archive ε) (envelope : Envelope) (body : Bytes) (now : Instant)
    (lock : Nat) :
    (∃ err b, Engine.clearEnded a envelope.key now = (.error (.ofLedger err), b) ∧
      (Section.commit envelope body now).respond a lock (a.ledger.currentFor envelope.key) =
        (b, .failed lock err)) ∨
    ∃ existing expired b, Engine.clearEnded a envelope.key now = (.ok (existing, expired), b) ∧
      (Section.commit envelope body now).respond a lock (a.ledger.currentFor envelope.key) =
        (b, .cleared lock existing expired) := by
  unfold Engine.clearEnded Section.respond
  cases a.ledger.currentFor envelope.key with
  | none => exact .inr ⟨none, none, a, rfl, rfl⟩
  | some p =>
    dsimp only
    cases p.hasEnded now with
    | false => exact .inr ⟨some p, none, a, rfl, rfl⟩
    | true =>
      obtain ⟨result, b⟩ := a.expire p.id now
      cases result with
      | error err => exact .inl ⟨err, b, rfl, rfl⟩
      | ok _ => exact .inr ⟨none, some p.id, b, rfl, rfl⟩

/-- Where a worker is when the work under its lock is done. -/
inductive Ends (lock : Nat) : Section.Stage → Except CommitError Committed → Prop
  | settled (kept : Except StorageError StoredBody) (answer : Except CommitError Committed) :
    Ends lock (.settled lock (.committed kept answer)) answer
  | failed (err : LedgerError) : Ends lock (.failed lock err) (.error (.ofLedger err))

/-- Under its lock a commit takes the steps of its worker. -/
theorem passes_commitLocked {e : Engine ε} (hcommit : e.stores.commit = Archive.commit)
    (hpersist : ∀ a envelope body, ∃ more, Leads a (e.stores.persist a envelope body).2 more)
    (a : Archive ε) (envelope : Envelope) (body : Bytes) (now : Instant) (lock : Nat) :
    ∃ stage more, Passes (.commit envelope body now) a (.entered lock)
        (e.commitLocked a envelope body now).2 stage more ∧
      Ends lock stage (e.commitLocked a envelope body now).1 := by
  have hlook : Passes (.commit envelope body now) a (.entered lock) a
      (.looked lock (a.ledger.currentFor envelope.key)) [] := passes_advance (.error default) rfl
  unfold Engine.commitLocked
  rcases respond_of_clearEnded a envelope body now lock with
    ⟨err, b, hclear, hrespond⟩ | ⟨existing, expired, b, hclear, hrespond⟩
  · rw [hclear]
    exact ⟨_, _, hlook.trans (passes_advance (.error default) hrespond), .failed err⟩
  · rw [hclear]
    have hroom := hlook.trans (passes_advance (.error default) hrespond)
    obtain ⟨more, hleads⟩ := hpersist b envelope body
    dsimp only
    generalize e.stores.persist b envelope body = answered at hleads ⊢
    obtain ⟨kept, c⟩ := answered
    -- Whatever the payload store calls comes in here, while the worker waits for its answer.
    have hkeep := hroom.trans (hleads.passes (.commit envelope body now) _)
    cases kept with
    | error err => exact ⟨_, _, hkeep.trans (passes_advance (.error err) rfl), .settled _ _⟩
    | ok stored =>
      have hkept := hkeep.trans (passes_advance (.ok stored) rfl)
      have hstore : Passes (.commit envelope body now) c (.kept lock existing expired stored)
          (Section.store c lock existing expired stored envelope now).1
          (Section.store c lock existing expired stored envelope now).2 [] :=
        passes_advance (.error default) rfl
      have hdone := hkept.trans hstore
      unfold Section.store at hdone
      rw [hcommit]
      dsimp only at hdone ⊢
      generalize Archive.commit { c with ids := c.ids.next.2 }
        ⟨.new c.ids.next.1 envelope stored now, (resolve envelope existing now).prior, now⟩ =
        committed at hdone ⊢
      obtain ⟨result, d⟩ := committed
      cases result with
      | error err => exact ⟨_, _, hdone, .failed err⟩
      | ok artefact => exact ⟨_, _, hdone, .settled _ _⟩

/-- Work under a lock is a run of a worker: it is refused, or enters, does the work and leaves. -/
theorem withLock_steps {α : Type} (work : Section) (a : Archive ε) (timedOut : α)
    (act : Archive ε → α × Archive ε) :
    (Passes work a .asking (Engine.withLock a work.key timedOut act).2 .refused [] ∧
      (Engine.withLock a work.key timedOut act).1 = timedOut) ∨
    ∃ b lock, Passes work a .asking b (.entered lock) [] ∧
      Engine.withLock a work.key timedOut act =
        ((act b).1, Worker.leave ⟨work, .entered lock⟩ lock (act b).2) := by
  rcases Worker.asks work a timedOut act with ⟨b, hasks, hlocked⟩ | ⟨b, lock, hasks, hlocked⟩
  · rw [hlocked]
    exact .inl ⟨passes_advance (.error default) (hasks _), rfl⟩
  · exact .inr ⟨b, lock, passes_advance (.error default) (hasks _), hlocked⟩

/-- A commit by the engine is a run of a worker, and of those that come up while its body is
kept. -/
theorem leads_commit {e : Engine ε} (hcommit : e.stores.commit = Archive.commit)
    (hpersist : ∀ a envelope body, ∃ more, Leads a (e.stores.persist a envelope body).2 more)
    (a : Archive ε) (envelope : Envelope) (body : Bytes) (now : Instant) :
    ∃ stage more, Leads a (e.commit a envelope body now).2
        (⟨.commit envelope body now, stage⟩ :: more) ∧
      Answers e.lockTimeout envelope.key stage (e.commit a envelope body now).1 := by
  have hbegin : ∀ {b stage more}, Passes (.commit envelope body now) a .asking b stage more →
      Leads a b (⟨.commit envelope body now, stage⟩ :: more) := by
    intro b stage more hpasses workers
    obtain ⟨moves, hrun⟩ := hpasses workers []
    exact ⟨.begin envelope body now :: moves, hrun⟩
  rcases withLock_steps (.commit envelope body now) a
    (.error (.conflict envelope.key.text (.lockTimeout e.lockTimeout)))
    (fun a => e.commitLocked a envelope body now) with
    ⟨hrefused, hresult⟩ | ⟨b, lock, henter, hdone⟩
  · have hanswer : (e.commit a envelope body now).1 =
        .error (.conflict envelope.key.text (.lockTimeout e.lockTimeout)) := hresult
    refine ⟨.refused, [], hbegin hrefused, ?_⟩
    rw [hanswer]
    exact .refused
  · obtain ⟨stage, more, hinside, hends⟩ :=
      passes_commitLocked hcommit hpersist b envelope body now lock
    have hafter := henter.trans hinside
    have hcommitted : e.commit a envelope body now = _ := hdone
    rw [hcommitted]
    dsimp only
    generalize e.commitLocked b envelope body now = done at hafter hends ⊢
    obtain ⟨answer, c⟩ := done
    cases hends with
    | settled kept answer =>
      exact ⟨_, _, hbegin (hafter.trans (passes_advance (.error default) rfl)), .left _ _⟩
    | failed err =>
      exact ⟨_, _, hbegin (hafter.trans (passes_advance (.error default) rfl)), .aborted err⟩

/-- A sweep by the engine is a run. -/
theorem leads_sweep (a : Archive ε) (now : Instant) :
    ∃ more, Leads a (Engine.expireDue a now).2 more := by
  obtain ⟨turns, swept, hgo, -⟩ := Engine.expireEach_eq_iff.mp (Eq.refl (Engine.expireDue a now))
  refine ⟨swept, ?_⟩
  intro before
  refine ⟨.sweep now :: inTurn before.length turns, ?_⟩
  have hrun := run_inTurn a before (sweepers a now) turns
  rw [sweepers, hgo] at hrun
  exact hrun

/-- Whatever engines do, called one after another and from inside each other, is a run. -/
theorem leads_of_calls {a b : Archive ε} (h : Engine.Calls a b) : ∃ more, Leads a b more := by
  induction h with
  | none a => exact ⟨[], .refl a⟩
  | aside _ payloads notes ih =>
    obtain ⟨more, hleads⟩ := ih
    exact ⟨_, hleads.trans (.aside _ payloads notes)⟩
  | commit _ e hcommit _ envelope body now ih ihpersist =>
    obtain ⟨more, hleads⟩ := ih
    obtain ⟨stage, more', hlast, -⟩ := leads_commit hcommit ihpersist _ envelope body now
    exact ⟨_, hleads.trans hlast⟩
  | sweep _ now ih =>
    obtain ⟨more, hleads⟩ := ih
    obtain ⟨more', hlast⟩ := leads_sweep _ now
    exact ⟨_, hleads.trans hlast⟩

/-- What engines do from here on, to any depth, runs do as well. -/
structure Covers (s : Traffic ε) : Prop where
  calls : ∀ b, Engine.Calls s.archive b → ∃ moves more, s.run moves = ⟨b, s.workers ++ more⟩
  /-- A commit is the work of one of the workers who come up, with the same answer. -/
  commit : ∀ e : Engine ε, e.Nests → ∀ envelope body now, ∃ moves stage more,
    s.run moves = ⟨(e.commit s.archive envelope body now).2,
        s.workers ++ ⟨.commit envelope body now, stage⟩ :: more⟩ ∧
      Answers e.lockTimeout envelope.key stage (e.commit s.archive envelope body now).1
  /-- A sweep is the work of the workers who come up for it, taking turns, with the same answer; and
  whatever they come to when they do so, a sweep by the engine comes to. -/
  sweep : ∀ now answer b, Engine.expireDue s.archive now = (answer, b) ↔ ∃ turns swept,
    s.run (.sweep now :: inTurn s.workers.length turns) = ⟨b, s.workers ++ swept⟩ ∧
      Swept (sweepers s.archive now) swept answer

theorem covers (s : Traffic ε) : s.Covers where
  calls := by
    intro b hcalls
    obtain ⟨more, hleads⟩ := leads_of_calls hcalls
    obtain ⟨moves, hrun⟩ := hleads s.workers
    exact ⟨moves, more, hrun⟩
  commit := by
    intro e he envelope body now
    obtain ⟨stage, more, hleads, hanswers⟩ := leads_commit he.commit
      (fun a envelope body => leads_of_calls (he.persist a envelope body)) s.archive envelope body
      now
    obtain ⟨moves, hrun⟩ := hleads s.workers
    exact ⟨moves, stage, more, hrun, hanswers⟩
  sweep := fun _ _ _ => s.expireDue_eq_iff

end Traffic

end CauseLists
