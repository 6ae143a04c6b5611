-- Workers who take turns. Each takes its steps while nobody else does anything, and then it is the
-- turn of the next one. A sweep of the engine is what its workers come to in this way, to the last
-- lock and the last answer.
import CauseLists.Proofs.Supersession.Locks
import CauseLists.Proofs.Supersession.Traffic

namespace CauseLists

variable {ε : Type}

/-! ## Turns -/

namespace Worker

/-- The answers of the payload store in the steps of a turn. -/
abbrev Turn := List (Except StorageError StoredBody)

/-- A worker takes a turn. -/
def go (w : Worker) (a : Archive ε) : Turn → Archive ε × Worker
  | [] => (a, w)
  | answer :: rest =>
    let (a, stage) := w.advance answer a
    go { w with stage } a rest

/-- Workers take turns. For those at the end there may be none left. -/
def goEach (a : Archive ε) : List Worker → List Turn → Archive ε × List Worker
  | [], _ => (a, [])
  | workers, [] => (a, workers)
  | w :: workers, turn :: turns =>
    let (a, w) := w.go a turn
    let (a, workers) := goEach a workers turns
    (a, w :: workers)

theorem go_cons {w : Worker} {a b : Archive ε} {answer : Except StorageError StoredBody}
    {stage : Section.Stage} (h : w.advance answer a = (b, stage)) (turn : Turn) :
    w.go a (answer :: turn) = go ⟨w.work, stage⟩ b turn := by
  rw [go, h]

theorem go_append (w : Worker) (a : Archive ε) (turn more : Turn) :
    w.go a (turn ++ more) = (w.go a turn).2.go (w.go a turn).1 more := by
  induction turn generalizing w a with
  | nil => rfl
  | cons answer turn ih => exact ih _ _

/-- Nobody comes back to asking. -/
theorem advance_ne_asking (w : Worker) (answer : Except StorageError StoredBody) (a : Archive ε) :
    (w.advance answer a).2 ≠ .asking := by
  obtain ⟨work, stage⟩ := w
  unfold advance Section.respond Section.store Section.afterKeeping
  grind

theorem eq_nil_of_go_asking {w : Worker} {a : Archive ε} {turn : Turn}
    (h : (w.go a turn).2.stage = .asking) : turn = [] := by
  rcases turn.eq_nil_or_concat' with rfl | ⟨turn, answer, rfl⟩
  · rfl
  · rw [go_append] at h
    exact absurd h (advance_ne_asking _ answer _)

end Worker

namespace Traffic

/-- The moves by which workers take turns, from one of them on. -/
def inTurn (first : Nat) : List Worker.Turn → List (Move ε)
  | [] => []
  | turn :: turns => turn.map (.advance first) ++ inTurn (first + 1) turns

theorem run_turn (a : Archive ε) (before after : List Worker) (w : Worker) (turn : Worker.Turn) :
    run ⟨a, before ++ w :: after⟩ (turn.map (.advance before.length)) =
      ⟨(w.go a turn).1, before ++ (w.go a turn).2 :: after⟩ := by
  induction turn generalizing a w with
  | nil => rfl
  | cons answer turn ih =>
    have hstep : move ⟨a, before ++ w :: after⟩ (.advance before.length answer) =
        ⟨(w.advance answer a).1, before ++ ⟨w.work, (w.advance answer a).2⟩ :: after⟩ := by
      simp [move]
    rw [List.map_cons, run, List.foldl_cons, hstep]
    exact ih _ _

/-- Turns that nobody is there to take. -/
theorem run_idle {s : Traffic ε} {first : Nat} (h : s.workers.length ≤ first)
    (turns : List Worker.Turn) : s.run (inTurn first turns) = s := by
  induction turns generalizing first with
  | nil => rfl
  | cons turn turns ih =>
    have hturn : s.run (turn.map (.advance first)) = s := by
      induction turn with
      | nil => rfl
      | cons answer turn ihturn =>
        have hstep : s.move (.advance first answer) = s := by
          simp [move, h]
        rw [List.map_cons, run, List.foldl_cons, hstep]
        exact ihturn
    rw [inTurn, run_append, hturn]
    exact ih (by omega)

theorem run_inTurn (a : Archive ε) (before workers : List Worker) (turns : List Worker.Turn) :
    run ⟨a, before ++ workers⟩ (inTurn before.length turns) =
      ⟨(Worker.goEach a workers turns).1, before ++ (Worker.goEach a workers turns).2⟩ := by
  induction workers generalizing a before turns with
  | nil => exact run_idle (by simp) turns
  | cons w workers ih =>
    cases turns with
    | nil => rfl
    | cons turn turns =>
      have hrest := ih (w.go a turn).1 (before ++ [(w.go a turn).2]) turns
      rw [List.length_append, List.length_singleton, List.append_assoc, List.append_assoc] at hrest
      rw [inTurn, run_append, run_turn]
      exact hrest

end Traffic

/-! ## Under a lock -/

/-- A worker that asks for its lock enters or is refused just as the engine does. -/
theorem Worker.asks {α : Type} (work : Section) (a : Archive ε) (timedOut : α)
    (act : Archive ε → α × Archive ε) :
    (∃ b, (∀ answer, advance ⟨work, .asking⟩ answer a = (b, .refused)) ∧
      Engine.withLock a work.key timedOut act = (timedOut, b)) ∨
    ∃ b lock, (∀ answer, advance ⟨work, .asking⟩ answer a = (b, .entered lock)) ∧
      Engine.withLock a work.key timedOut act =
        ((act b).1, leave ⟨work, .entered lock⟩ lock (act b).2) := by
  cases htry : (a.locks.handle work.key).2.tryLock (a.locks.handle work.key).1 with
  | none =>
    refine .inl ⟨{ a with
      locks := (a.locks.handle work.key).2.release (a.locks.handle work.key).1 }, ?_, ?_⟩
    · simp [advance, htry]
    · simp [Engine.withLock, htry]
  | some held =>
    refine .inr ⟨{ a with locks := held }, (a.locks.handle work.key).1.number, ?_, ?_⟩
    · simp [advance, htry]
    · simp [Engine.withLock, htry, leave, KeyLocks.mk_handle_number]

/-! ## Sweeps -/

/-- An expiry that looks at what is current does what the engine does. -/
theorem Section.respond_of_expireIfCurrent (a : Archive ε) (candidate : Artefact) (now : Instant)
    (lock : Nat) :
    (∃ id b, Engine.expireIfCurrent a candidate.key candidate.id now = (.ok id, b) ∧
      (expiry candidate now).respond a lock (a.ledger.currentFor candidate.key) =
        (b, .settled lock (.expired id))) ∨
    ∃ err b, Engine.expireIfCurrent a candidate.key candidate.id now = (.error (.ofLedger err), b) ∧
      (expiry candidate now).respond a lock (a.ledger.currentFor candidate.key) =
        (b, .failed lock err) := by
  unfold Engine.expireIfCurrent respond
  cases a.ledger.currentFor candidate.key with
  | none => exact .inl ⟨none, a, rfl, rfl⟩
  | some p =>
    dsimp only
    split
    · obtain ⟨result, b⟩ := a.expire candidate.id now
      cases result with
      | error err => exact .inr ⟨err, b, rfl, rfl⟩
      | ok _ => exact .inl ⟨some candidate.id, b, rfl, rfl⟩
    · exact .inl ⟨none, a, rfl, rfl⟩

namespace Worker

/-- The worker of an expiry is through; what it has expired, or why it could not. -/
inductive Expires (work : Section) : Worker → Except CommitError (Option ArtefactId) → Prop
  | refused : Expires work ⟨work, .refused⟩ (.ok none)
  | left (id : Option ArtefactId) : Expires work ⟨work, .left (.expired id)⟩ (.ok id)
  | aborted (err : LedgerError) : Expires work ⟨work, .aborted err⟩ (.error (.ofLedger err))

variable {work : Section} {w : Worker} {answer : Except CommitError (Option ArtefactId)}

/-- Whoever is through takes no more steps. -/
theorem Expires.go (h : w.Expires work answer) (a : Archive ε) (turn : Turn) :
    w.go a turn = (a, w) := by
  induction turn with
  | nil => rfl
  | cons _ turn ih => cases h <;> exact ih

theorem Expires.answer_unique {answer' : Except CommitError (Option ArtefactId)}
    (h : w.Expires work answer) (h' : w.Expires work answer') : answer = answer' := by
  cases h <;> cases h' <;> rfl

/-- Four steps are enough for an expiry. -/
theorem go_expiry (a : Archive ε) (candidate : Artefact) (now : Instant) (turn : Turn)
    (hturn : 4 ≤ turn.length) :
    ∃ w answer b, go ⟨.expiry candidate now, .asking⟩ a turn = (b, w) ∧
      w.Expires (.expiry candidate now) answer ∧
      Engine.withLock a candidate.key (.ok none)
        (fun a => Engine.expireIfCurrent a candidate.key candidate.id now) = (answer, b) := by
  match turn, hturn with
  | x₁ :: x₂ :: x₃ :: x₄ :: rest, _ =>
    rcases asks (.expiry candidate now) a (.ok none)
      (fun a => Engine.expireIfCurrent a candidate.key candidate.id now) with
      ⟨b, hasks, hlocked⟩ | ⟨b, lock, hasks, hlocked⟩
    · have hgo : go ⟨.expiry candidate now, .asking⟩ a (x₁ :: x₂ :: x₃ :: x₄ :: rest) =
          (b, ⟨.expiry candidate now, .refused⟩) := by
        rw [go_cons (hasks x₁)]
        exact (Expires.refused).go b _
      exact ⟨_, _, b, hgo, .refused, hlocked⟩
    · have hlook : advance ⟨.expiry candidate now, .entered lock⟩ x₂ b =
          (b, .looked lock (b.ledger.currentFor candidate.key)) := rfl
      rcases Section.respond_of_expireIfCurrent b candidate now lock with
        ⟨id, c, hdone, hrespond⟩ | ⟨err, c, hdone, hrespond⟩
      · have hact : advance ⟨.expiry candidate now, .looked lock
            (b.ledger.currentFor candidate.key)⟩ x₃ b = (c, .settled lock (.expired id)) := hrespond
        rw [hdone] at hlocked
        refine ⟨_, _, _, ?_, .left id, hlocked⟩
        rw [go_cons (hasks x₁), go_cons hlook, go_cons hact, go_cons rfl]
        exact (Expires.left id).go _ rest
      · have hact : advance ⟨.expiry candidate now, .looked lock
            (b.ledger.currentFor candidate.key)⟩ x₃ b = (c, .failed lock err) := hrespond
        rw [hdone] at hlocked
        refine ⟨_, _, _, ?_, .aborted err, hlocked⟩
        rw [go_cons (hasks x₁), go_cons hlook, go_cons hact, go_cons rfl]
        exact (Expires.aborted err).go _ rest

/-- The worker of an expiry, alone, comes to what the engine comes to, whatever turn it takes that
leads it through. -/
theorem exists_go_expiry_iff {a b : Archive ε} {candidate : Artefact} {now : Instant}
    {answer : Except CommitError (Option ArtefactId)} :
    Engine.withLock a candidate.key (.ok none)
        (fun a => Engine.expireIfCurrent a candidate.key candidate.id now) = (answer, b) ↔
      ∃ turn w, go ⟨.expiry candidate now, .asking⟩ a turn = (b, w) ∧
        w.Expires (.expiry candidate now) answer := by
  constructor
  · intro hlocked
    obtain ⟨w, answer', b', hgo, hexpires, hlocked'⟩ :=
      go_expiry a candidate now (List.replicate 4 (.error default)) (by simp)
    obtain ⟨rfl, rfl⟩ := Prod.mk.inj (hlocked.symm.trans hlocked')
    exact ⟨_, w, hgo, hexpires⟩
  · rintro ⟨turn, w, hgo, hexpires⟩
    -- More steps would not lead it any further, and there are enough of them then.
    have hmore : go ⟨.expiry candidate now, .asking⟩ a
        (turn ++ List.replicate 4 (.error default)) = (b, w) := by
      rw [go_append, hgo]
      exact hexpires.go b _
    obtain ⟨w', answer', b', hgo', hexpires', hlocked⟩ :=
      go_expiry a candidate now (turn ++ List.replicate 4 (.error default)) (by simp)
    obtain ⟨rfl, rfl⟩ := Prod.mk.inj (hmore.symm.trans hgo')
    rw [hlocked, hexpires.answer_unique hexpires']

theorem goEach_nil (a : Archive ε) (workers : List Worker) :
    goEach a workers [] = (a, workers) := by
  cases workers <;> rfl

theorem goEach_cons {w w' : Worker} {a b : Archive ε} {turn : Turn} (h : w.go a turn = (b, w'))
    (workers : List Worker) (turns : List Turn) : goEach a (w :: workers) (turn :: turns) =
      ((goEach b workers turns).1, w' :: (goEach b workers turns).2) := by
  rw [goEach, h]

/-- Workers who have not begun have not changed anything. -/
theorem fst_goEach_of_asking {workers : List Worker} {a : Archive ε} {turns : List Turn}
    (h : ∀ w ∈ (goEach a workers turns).2, w.stage = .asking) :
    (goEach a workers turns).1 = a := by
  induction workers generalizing a turns with
  | nil => rfl
  | cons w workers ih =>
    cases turns with
    | nil => rfl
    | cons turn turns =>
      rw [goEach_cons rfl] at h ⊢
      obtain ⟨hfirst, hrest⟩ := List.forall_mem_cons.mp h
      obtain rfl := eq_nil_of_go_asking hfirst
      exact ih hrest

end Worker

/-- The workers of a sweep are through, or one has met with an error and those behind it have not
begun. The answer is what they have expired, or the error. -/
inductive Traffic.Swept : List Worker → List Worker → Except CommitError (List ArtefactId) → Prop
  | none : Swept [] [] (.ok [])
  | next {v w : Worker} {id : Option ArtefactId} {vs ws : List Worker}
    {answer : Except CommitError (List ArtefactId)} (h : w.Expires v.work (.ok id))
    (hrest : Swept vs ws answer) : Swept (v :: vs) (w :: ws) (answer.map (id.toList ++ ·))
  | stopped {v w : Worker} {err : CommitError} {vs : List Worker}
    (h : w.Expires v.work (.error err)) : Swept (v :: vs) (w :: vs) (.error err)

section

variable {a b c : Archive ε} {candidate : Artefact} {rest : List Artefact} {now : Instant}

theorem Engine.expireEach_cons_of_error {err : CommitError}
    (h : withLock a candidate.key (.ok none)
      (fun a => expireIfCurrent a candidate.key candidate.id now) = (.error err, b)) :
    expireEach a now (candidate :: rest) = (.error err, b) := by
  rw [expireEach, h]

theorem Engine.expireEach_cons_of_ok {id : Option ArtefactId}
    (h : withLock a candidate.key (.ok none)
      (fun a => expireIfCurrent a candidate.key candidate.id now) = (.ok id, b)) :
    expireEach a now (candidate :: rest) =
      ((expireEach b now rest).1.map (id.toList ++ ·), (expireEach b now rest).2) := by
  rw [expireEach, h]
  dsimp only
  rcases expireEach b now rest with ⟨err | more, c⟩ <;> rfl

/-- Candidates that are expired one after another are workers who take turns. -/
theorem Engine.expireEach_eq_iff {candidates : List Artefact}
    {answer : Except CommitError (List ArtefactId)} :
    expireEach a now candidates = (answer, b) ↔ ∃ turns swept,
      Worker.goEach a (candidates.map (fun c => ⟨.expiry c now, .asking⟩)) turns = (b, swept) ∧
        Traffic.Swept (candidates.map (fun c => ⟨.expiry c now, .asking⟩)) swept answer := by
  induction candidates generalizing a b answer with
  | nil =>
    constructor
    · intro h
      obtain ⟨rfl, rfl⟩ := Prod.mk.inj h
      exact ⟨[], [], rfl, .none⟩
    · rintro ⟨turns, swept, hgo, hswept⟩
      cases hswept
      obtain ⟨rfl, -⟩ := Prod.mk.inj hgo
      rfl
  | cons candidate rest ih =>
    rw [List.map_cons]
    constructor
    · intro h
      rcases hlocked : withLock a candidate.key (.ok none)
        (fun a => expireIfCurrent a candidate.key candidate.id now) with ⟨err | id, c⟩
      · rw [expireEach_cons_of_error hlocked] at h
        obtain ⟨rfl, rfl⟩ := Prod.mk.inj h
        obtain ⟨turn, w, hgo, hexpires⟩ := Worker.exists_go_expiry_iff.mp hlocked
        refine ⟨[turn], _, ?_, .stopped hexpires⟩
        rw [Worker.goEach_cons hgo, Worker.goEach_nil]
      · rw [expireEach_cons_of_ok hlocked] at h
        obtain ⟨rfl, rfl⟩ := Prod.mk.inj h
        obtain ⟨turn, w, hgo, hexpires⟩ := Worker.exists_go_expiry_iff.mp hlocked
        obtain ⟨turns, swept, hrest, hswept⟩ := ih.mp (Eq.refl (expireEach c now rest))
        refine ⟨turn :: turns, w :: swept, ?_, .next hexpires hswept⟩
        rw [Worker.goEach_cons hgo, hrest]
    · rintro ⟨turns, swept, hgo, hswept⟩
      cases turns with
      | nil =>
        -- Somebody has to be through, and nobody has begun.
        rw [Worker.goEach_nil] at hgo
        obtain ⟨rfl, rfl⟩ := Prod.mk.inj hgo
        cases hswept with
        | next hexpires _ => cases hexpires
        | stopped hexpires => cases hexpires
      | cons turn turns =>
        rcases hfirst : Worker.go ⟨.expiry candidate now, .asking⟩ a turn with ⟨c, w⟩
        rcases hthen : Worker.goEach c
          (rest.map (fun c => ⟨.expiry c now, .asking⟩)) turns with ⟨d, ws⟩
        rw [Worker.goEach_cons hfirst, hthen] at hgo
        obtain ⟨rfl, rfl⟩ := Prod.mk.inj hgo
        cases hswept with
        | next hexpires hrest =>
          rw [expireEach_cons_of_ok (Worker.exists_go_expiry_iff.mpr ⟨turn, w, hfirst, hexpires⟩),
            ih.mpr ⟨turns, ws, hthen, hrest⟩]
        | stopped hexpires =>
          have hwaited := @Worker.fst_goEach_of_asking _
            (rest.map (fun c => ⟨.expiry c now, .asking⟩)) c turns (by simp [hthen])
          rw [hthen] at hwaited
          obtain rfl := hwaited
          exact expireEach_cons_of_error
            (Worker.exists_go_expiry_iff.mpr ⟨turn, w, hfirst, hexpires⟩)

/-- A sweep by the engine is the work of the workers who come up for it, if they take turns and
nobody else does anything: whatever they come to in that way the engine comes to, and what the
engine comes to they can come to. -/
theorem Traffic.expireDue_eq_iff (s : Traffic ε) {answer : Except CommitError (List ArtefactId)} :
    Engine.expireDue s.archive now = (answer, b) ↔ ∃ turns swept,
      s.run (.sweep now :: inTurn s.workers.length turns) = ⟨b, s.workers ++ swept⟩ ∧
        Swept (sweepers s.archive now) swept answer := by
  have hrun : ∀ turns, s.run (.sweep now :: inTurn s.workers.length turns) =
      ⟨(Worker.goEach s.archive (sweepers s.archive now) turns).1,
        s.workers ++ (Worker.goEach s.archive (sweepers s.archive now) turns).2⟩ :=
    run_inTurn s.archive s.workers (sweepers s.archive now)
  rw [Engine.expireDue, Engine.expireEach_eq_iff]
  refine exists_congr (fun turns => exists_congr (fun swept => and_congr_left' ?_))
  rw [hrun, sweepers]
  simp [Prod.ext_iff]

end

end CauseLists
