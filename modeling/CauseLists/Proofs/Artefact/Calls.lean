-- The life of an artefact, whatever calls it gets and in whatever order their instants are. One
-- call at most succeeds, for it takes the artefact out of the current state, and none succeeds
-- after it. Every other call leaves the artefact as it was.
import CauseLists.Proofs.Artefact.Lifecycle
import CauseLists.Proofs.ListType

namespace CauseLists.Artefact

/-! ## Calls -/

/-- A call that is to take an artefact out of the current state. -/
inductive Call
  | supersede (successor : ArtefactId) (now : Instant)
  | expire (now : Instant)
deriving DecidableEq, Repr

namespace Call

/-- The instant of a call. -/
def now : Call → Instant
  | .supersede _ now => now
  | .expire now => now

/-- The answer of an artefact to a call, and what the call leaves of it. -/
def answer (a : Artefact) : Call → Except TransitionError Unit × Artefact
  | .supersede successor now => a.supersede successor now
  | .expire now => a.expire now

end Call

/-- The artefact after a call. -/
def call (a : Artefact) (c : Call) : Artefact := (c.answer a).2

/-- The artefact after some calls. -/
def after (a : Artefact) (calls : List Call) : Artefact := calls.foldl call a

/-- Those of some calls that succeed, in order. -/
def succeeding (a : Artefact) : List Call → List Call
  | [] => []
  | c :: rest =>
    match c.answer a with
    | (.ok (), b) => c :: b.succeeding rest
    | (.error _, b) => b.succeeding rest

theorem after_cons (a : Artefact) (c : Call) (rest : List Call) :
    a.after (c :: rest) = (a.call c).after rest := rfl

theorem after_concat (a : Artefact) (calls : List Call) (c : Call) :
    a.after (calls ++ [c]) = (a.after calls).call c := by
  simp [after]

theorem call_of_ok {a b : Artefact} {c : Call} (h : c.answer a = (.ok (), b)) : a.call c = b := by
  rw [call, h]

/-- A call that is refused changes nothing. -/
theorem call_of_error {a b : Artefact} {c : Call} {e : TransitionError}
    (h : c.answer a = (.error e, b)) : a.call c = a := by
  rw [call, h]
  cases c with
  | supersede successor now => exact supersede_of_error h
  | expire now => exact expire_of_error h

/-! ## One call -/

/-- What became of an artefact, by those calls that succeeded. -/
inductive Became (start : Artefact) : Artefact → List Call → Prop
  | same : Became start start []
  | superseded {b : Artefact} {successor : ArtefactId} {now : Instant}
    (h : start.Superseded successor now b) : Became start b [.supersede successor now]
  | expired {b : Artefact} {now : Instant} (h : start.Expired now b) :
    Became start b [.expire now]

theorem became_of_answer {a b : Artefact} {c : Call} (h : c.answer a = (.ok (), b)) :
    Became a b [c] := by
  cases c with
  | supersede successor now => exact .superseded (supersede_spec h)
  | expire now => exact .expired (expire_spec h)

/-- A call that succeeds finds the artefact current and leaves it in another state. -/
theorem leaves_of_answer {a b : Artefact} {c : Call} (h : c.answer a = (.ok (), b)) :
    Leaves a b := by
  cases c with
  | supersede successor now => exact (supersede_spec h).leaves
  | expire now => exact (expire_spec h).leaves

/-- An expiry succeeds exactly while the artefact is current and after its display has ended. -/
theorem expire_eq_ok_iff (a : Artefact) (now : Instant) :
    (∃ b, a.expire now = (.ok (), b)) ↔ a.state = .current ∧ a.envelope.displayTo < now := by
  constructor
  · rintro ⟨b, hb⟩
    have hexpired := expire_spec hb
    exact ⟨hexpired.was, (a.hasEnded_iff now).mp hexpired.ended⟩
  · rintro ⟨hcurrent, hended⟩
    exact expire_of_current hcurrent ((a.hasEnded_iff now).mpr hended)

/-! ## Rows of calls -/

/-- An artefact that has left the current state answers no call. -/
theorem after_of_left {a : Artefact} (h : a.state ≠ .current) (calls : List Call) :
    a.after calls = a ∧ a.succeeding calls = [] := by
  induction calls with
  | nil => exact ⟨rfl, rfl⟩
  | cons c rest ih =>
    rcases hanswer : c.answer a with ⟨e | ⟨⟩, b⟩
    · have hsame : b = a := (congrArg Prod.snd hanswer).symm.trans (call_of_error hanswer)
      rw [after_cons, call_of_error hanswer, succeeding, hanswer, hsame]
      exact ih
    · exact absurd (leaves_of_answer hanswer).was h

theorem became_after (a : Artefact) (calls : List Call) :
    Became a (a.after calls) (a.succeeding calls) := by
  induction calls with
  | nil => exact .same
  | cons c rest ih =>
    rw [after_cons, succeeding]
    rcases hanswer : c.answer a with ⟨e | ⟨⟩, b⟩
    · have hsame : b = a := (congrArg Prod.snd hanswer).symm.trans (call_of_error hanswer)
      rw [call_of_error hanswer, hsame]
      exact ih
    · -- What comes after the first success finds the artefact in a state that it does not leave.
      obtain ⟨hafter, hnone⟩ := after_of_left (leaves_of_answer hanswer).left rest
      rw [call_of_ok hanswer]
      dsimp only
      rw [hafter, hnone]
      exact became_of_answer hanswer

/-! ## A whole life -/

/-- A window that is cut short at an instant still ends between its start and its old end. -/
theorem Superseded.window {a b : Artefact} {successor : ArtefactId} {now : Instant}
    (h : a.Superseded successor now b) (hle : a.effectiveFrom ≤ a.effectiveTo) :
    b.effectiveFrom ≤ b.effectiveTo ∧ b.effectiveTo ≤ a.effectiveTo := by
  have hseconds : b.effectiveTo.seconds =
      max (min a.effectiveTo.seconds now.seconds) a.effectiveFrom.seconds := by
    rw [h.effectiveTo, Instant.seconds_later, Instant.seconds_earlier]
  change a.effectiveFrom.seconds ≤ a.effectiveTo.seconds at hle
  rw [h.record.effectiveFrom]
  show a.effectiveFrom.seconds ≤ b.effectiveTo.seconds ∧
    b.effectiveTo.seconds ≤ a.effectiveTo.seconds
  omega

/-- What an artefact says of its life: what it was at the start, what it is now, and the calls that
succeeded in between. -/
structure Life (start a : Artefact) (done : List Call) : Prop where
  once : done.length ≤ 1
  /-- The log is empty while the artefact is current. -/
  unlogged : a.state = .current ↔ a.transitions = []
  /-- After that it holds one line, of the call that succeeded. -/
  logged : a.state ≠ .current → ∃ c reason, done = [c] ∧
    a.transitions = [⟨.current, a.state, c.now, reason⟩]
  successor : a.supersededBy.isSome = true ↔ a.state = .superseded
  expiry : ∀ now, (∃ b, a.expire now = (.ok (), b)) ↔
    a.state = .current ∧ start.envelope.displayTo < now
  record : start.SameRecord a
  /-- The effective window starts with the display and does not outlast it. -/
  starts : a.effectiveFrom = start.envelope.displayFrom
  lasts : a.effectiveFrom ≤ a.effectiveTo
  ends : a.effectiveTo ≤ start.envelope.displayTo
  hidden : a.state ≠ .current → ∀ now, a.isVisible now = false

/-- An artefact that has left the current state is hidden. -/
theorem isVisible_of_left {a : Artefact} (h : a.state ≠ .current) (now : Instant) :
    a.isVisible now = false := by
  simp [isVisible, isCurrent, h]

theorem Became.life {id : ArtefactId} {envelope : Envelope} {body : StoredBody}
    {receivedAt : Instant} {a : Artefact} {done : List Call}
    (h : Became (new id envelope body receivedAt) a done)
    (hwindow : envelope.displayFrom ≤ envelope.displayTo) :
    Life (new id envelope body receivedAt) a done := by
  have hexpiry : ∀ {b : Artefact}, (new id envelope body receivedAt).SameRecord b → ∀ now,
      (∃ c, b.expire now = (.ok (), c)) ↔ b.state = .current ∧ envelope.displayTo < now :=
    fun {b} hsame now => by
      rw [b.expire_eq_ok_iff, hsame.envelope]
      rfl
  cases h with
  | same =>
    exact {
      once := Nat.zero_le 1
      unlogged := by simp [new]
      logged := fun hleft => absurd rfl hleft
      successor := by simp [new]
      expiry := hexpiry (.refl _)
      record := .refl _
      starts := rfl
      lasts := hwindow
      ends := Instant.le_refl _
      hidden := isVisible_of_left }
  | superseded h =>
    have hends := h.window hwindow
    exact {
      once := Nat.le_refl 1
      unlogged := by simp [h.state, h.log]
      logged := fun _ => ⟨_, _, rfl, by rw [h.log, h.state]; rfl⟩
      successor := by simp [h.state, h.supersededBy]
      expiry := hexpiry h.record
      record := h.record
      starts := h.record.effectiveFrom
      lasts := hends.1
      ends := hends.2
      hidden := isVisible_of_left }
  | expired h =>
    exact {
      once := Nat.le_refl 1
      unlogged := by simp [h.state, h.log]
      logged := fun _ => ⟨_, _, rfl, by rw [h.log, h.state]; rfl⟩
      successor := by simp [h.state, h.supersededBy, new]
      expiry := hexpiry h.record
      record := h.record
      starts := h.record.effectiveFrom
      lasts := by
        rw [h.record.effectiveFrom, h.effectiveTo]
        exact hwindow
      ends := h.effectiveTo ▸ Instant.le_refl _
      hidden := isVisible_of_left }

/-- An artefact whose display does not end before it starts leaves the current state by one call
at most, whatever calls it gets. A call that fails changes nothing, and the log, the link to a
successor and the effective window say at every moment what became of the artefact. -/
theorem an_artefact_leaves_the_current_state_once {envelope : Envelope}
    (hwindow : envelope.displayFrom ≤ envelope.displayTo) (id : ArtefactId) (body : StoredBody)
    (receivedAt : Instant) (calls : List Call) :
    Life (new id envelope body receivedAt) ((new id envelope body receivedAt).after calls)
      ((new id envelope body receivedAt).succeeding calls) ∧
    ∀ c e, (c.answer ((new id envelope body receivedAt).after calls)).1 = .error e →
      (new id envelope body receivedAt).after (calls ++ [c]) =
        (new id envelope body receivedAt).after calls := by
  constructor
  · exact (became_after _ calls).life hwindow
  · intro c e herror
    rw [after_concat]
    exact call_of_error (Prod.ext herror rfl)

/-! An artefact that is to expire too soon, is superseded, and then gets two more calls. -/

namespace Example

def envelope : Envelope where
  provenance := "COMMON_PLATFORM"
  sourceId := some "id1"
  artefactType := .list
  sensitivity := .anyone
  language := .english
  displayFrom := .epoch
  displayTo := (Instant.ofSeconds? 86400).getD .epoch
  listType := ⟨"DAILY_LIST", ListType.isCanonical_daily⟩
  location := "123"
  contentDate := .epoch

def start : Artefact := new (.ofNat 1) envelope default .epoch

/-- An instant within the display, and one after it. -/
def noon : Instant := (Instant.ofSeconds? 43200).getD .epoch

def late : Instant := (Instant.ofSeconds? 90000).getD .epoch

def calls : List Call :=
  [.expire noon, .supersede (.ofNat 2) noon, .expire late, .supersede (.ofNat 3) .epoch]

end Example

theorem a_successor_at_noon_ends_the_window :
    Example.envelope.displayFrom ≤ Example.envelope.displayTo ∧
      Life Example.start (Example.start.after Example.calls)
        (Example.start.succeeding Example.calls) ∧
      Example.start.succeeding Example.calls = [.supersede (.ofNat 2) Example.noon] ∧
      (Example.start.after Example.calls).effectiveTo = Example.noon ∧
      (Example.start.after Example.calls).supersededBy = some (.ofNat 2) := by
  have hwindow : Example.envelope.displayFrom ≤ Example.envelope.displayTo := by decide
  refine ⟨hwindow, ?_, by decide, by decide, by decide⟩
  exact (an_artefact_leaves_the_current_state_once hwindow (.ofNat 1) default .epoch
    Example.calls).1

end CauseLists.Artefact
