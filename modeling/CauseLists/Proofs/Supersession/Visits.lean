-- Visits to the locks. Whoever needs the lock of a key takes a handle to it, tries to have it,
-- gives it back, drops the handle, and looks whether the lock can go; between any two of these
-- steps others may take theirs. Whatever the order, all who come to a key at one time come to one
-- lock, at most one of them has it, and the last one to go leaves nothing behind.
import CauseLists.Proofs.Supersession.Slots
import CauseLists.Supersession.Engine

namespace CauseLists

/-! ## Steps -/

/-- How far a visit has come. -/
inductive Visit.Stage
  /-- There is a handle, and the lock is wanted. -/
  | waiting
  /-- The lock is had. -/
  | inside
  /-- The lock was given back or not had, and the handle is still there. -/
  | leaving
  /-- The handle is dropped, and it has yet to be seen whether the lock can go. -/
  | checking
  | ended
deriving DecidableEq, Repr

/-- The handle has been taken and is not dropped yet. -/
def Visit.Stage.hasHandle : Visit.Stage → Bool
  | .waiting => true
  | .inside => true
  | .leaving => true
  | .checking => false
  | .ended => false

/-- This is the critical section. -/
def Visit.Stage.isInside : Visit.Stage → Bool
  | .inside => true
  | .waiting => false
  | .leaving => false
  | .checking => false
  | .ended => false

/-- One use of the lock of a key. A client makes one visit after another, or one inside another. -/
structure Visit (κ : Type) where
  handle : LockHandle κ
  stage : Visit.Stage
deriving DecidableEq, Repr

namespace Visit

variable {κ : Type}

/-- The key that is visited. -/
def key (v : Visit κ) : κ := v.handle.key

def hasHandle (v : Visit κ) : Bool := v.stage.hasHandle

def isInside (v : Visit κ) : Bool := v.stage.isInside

theorem countP_cons (p : Visit κ → Bool) (v : Visit κ) (visits : List (Visit κ)) :
    (v :: visits).countP p = visits.countP p + (p v).toNat := by
  rw [List.countP_cons]
  cases p v <;> rfl

variable [DecidableEq κ]

/-- The next step of a visit. Whoever does not get the lock leaves, or is patient and tries
again. -/
def advance (v : Visit κ) (patient : Bool) (l : KeyLocks κ) : KeyLocks κ × Stage :=
  match v.stage with
  | .waiting =>
    match l.tryLock v.handle with
    | some l => (l, .inside)
    | none => (l, if patient then .waiting else .leaving)
  | .inside => (l.unlock v.handle, .leaving)
  | .leaving => (l.drop v.handle, .checking)
  | .checking => (l.sweep v.key, .ended)
  | .ended => (l, .ended)

end Visit

/-- The locks and all visits that were ever made to them. -/
structure LockRoom (κ : Type) where
  locks : KeyLocks κ
  visits : List (Visit κ)

namespace LockRoom

variable {κ : Type} [DecidableEq κ]

/-- What can happen next. -/
inductive Move (κ : Type)
  /-- Somebody takes a handle to the lock of a key. -/
  | come (key : κ)
  /-- A visit takes its next step. -/
  | advance (visit : Nat) (patient : Bool)

/-- Nobody has come yet. -/
def empty : LockRoom κ := ⟨.empty, []⟩

def move (s : LockRoom κ) : Move κ → LockRoom κ
  | .come key =>
    let (handle, locks) := s.locks.handle key
    ⟨locks, s.visits ++ [⟨handle, .waiting⟩]⟩
  | .advance i patient =>
    match s.visits[i]? with
    | some v =>
      let (locks, stage) := v.advance patient s.locks
      ⟨locks, s.visits.set i { v with stage }⟩
    | none => s

def run (s : LockRoom κ) (moves : List (Move κ)) : LockRoom κ := moves.foldl move s

theorem run_append (s : LockRoom κ) (moves more : List (Move κ)) :
    s.run (moves ++ more) = (s.run moves).run more := List.foldl_append

end LockRoom

/-! ## The lock of one key -/

/-- The lock that a key has is the one that its visits need: all handles are to it, it counts them
and knows whether somebody is inside, and it is there only while a visit goes on. -/
structure KeyLocks.Serves {κ : Type} (slot : Option (Nat × KeyLock)) (visits : List (Visit κ)) :
    Prop where
  known : ∀ v ∈ visits, v.hasHandle = true → ∃ lock, slot = some (v.handle.number, lock)
  counted : ∀ {number lock}, slot = some (number, lock) →
    lock.handles = visits.countP Visit.hasHandle
  held : ∀ {number lock}, slot = some (number, lock) →
    lock.isHeld.toNat = visits.countP Visit.isInside
  used : ∀ {number lock}, slot = some (number, lock) → ∃ v ∈ visits, v.stage ≠ .ended

namespace KeyLocks.Serves

variable {κ : Type} {slot : Option (Nat × KeyLock)} {visits : List (Visit κ)} {g : LockHandle κ}
  {number handles : Nat} {lock : KeyLock} {isHeld : Bool}

theorem perm {visits' : List (Visit κ)} (h : Serves slot visits) (hperm : visits.Perm visits') :
    Serves slot visits' where
  known := fun v hv => h.known v (hperm.mem_iff.mpr hv)
  counted := fun hslot => (h.counted hslot).trans (hperm.countP_eq _)
  held := fun hslot => (h.held hslot).trans (hperm.countP_eq _)
  used := by
    intro number lock hslot
    obtain ⟨v, hv, hstage⟩ := h.used hslot
    exact ⟨v, hperm.mem_iff.mp hv, hstage⟩

/-- Visits that are over and locks that are not there go together. -/
theorem none_of_ended (h : Serves slot visits) (hended : ∀ v ∈ visits, v.stage = .ended) :
    slot = none := by
  rcases slot with _ | ⟨number, lock⟩
  · rfl
  · obtain ⟨v, hv, hstage⟩ := h.used rfl
    exact absurd (hended v hv) hstage

/-- The lock that somebody who comes will get a handle to: the one that is there, or a new one. -/
theorem counts (h : Serves slot visits)
    (hlock : slot = none ∧ lock = ⟨0, false⟩ ∨ slot = some (number, lock)) :
    lock.handles = visits.countP Visit.hasHandle ∧
      lock.isHeld.toNat = visits.countP Visit.isInside ∧
      ∀ v ∈ visits, v.hasHandle = true → v.handle.number = number := by
  rcases hlock with ⟨rfl, rfl⟩ | rfl
  · have hnobody : ∀ v ∈ visits, v.hasHandle = false := by
      intro v hv
      rw [Bool.eq_false_iff]
      intro hhandle
      obtain ⟨lock, hslot⟩ := h.known v hv hhandle
      cases hslot
    have houtside : ∀ v ∈ visits, v.isInside = false := by
      rintro ⟨g, stage⟩ hv
      have hnone := hnobody _ hv
      cases stage <;> first | rfl | cases hnone
    refine ⟨?_, ?_, ?_⟩
    · exact (List.countP_eq_zero.mpr (by simpa using hnobody)).symm
    · exact (List.countP_eq_zero.mpr (by simpa using houtside)).symm
    · intro v hv hhandle
      rw [hnobody v hv] at hhandle
      cases hhandle
  · refine ⟨h.counted rfl, h.held rfl, ?_⟩
    intro v hv hhandle
    obtain ⟨lock', hslot⟩ := h.known v hv hhandle
    exact congrArg Prod.fst (Option.some.inj hslot).symm

/-- One more handle to the lock is given out. -/
theorem come (h : Serves slot visits)
    (hlock : slot = none ∧ lock = ⟨0, false⟩ ∨ slot = some (number, lock))
    (hnumber : g.number = number) :
    Serves (some (number, { lock with handles := lock.handles + 1 }))
      (⟨g, .waiting⟩ :: visits) := by
  obtain ⟨hhandles, hheld, hknown⟩ := h.counts hlock
  refine ⟨?_, ?_, ?_, ?_⟩
  · intro v hv hhandle
    rcases List.mem_cons.mp hv with rfl | hv
    · exact ⟨_, by rw [hnumber]⟩
    · exact ⟨_, by rw [hknown v hv hhandle]⟩
  · rintro _ _ ⟨⟩
    rw [Visit.countP_cons, ← hhandles]
    rfl
  · rintro _ _ ⟨⟩
    rw [Visit.countP_cons, ← hheld]
    rfl
  · intro _ _ _
    exact ⟨_, List.mem_cons_self, Visit.Stage.noConfusion⟩

/-- A visit goes from one stage to another while the lock stays, and the lock goes with it. -/
theorem restage {stage stage' : Visit.Stage} {lock' : KeyLock}
    (h : Serves (some (number, lock)) (⟨g, stage⟩ :: visits))
    (hhandles : lock'.handles + stage.hasHandle.toNat = lock.handles + stage'.hasHandle.toNat)
    (hheld : lock'.isHeld.toNat + stage.isInside.toNat =
      lock.isHeld.toNat + stage'.isInside.toNat)
    (hkeeps : stage'.hasHandle = true → stage.hasHandle = true) (hended : stage' ≠ .ended) :
    Serves (some (number, lock')) (⟨g, stage'⟩ :: visits) := by
  have hcounted := h.counted rfl
  have hinside := h.held rfl
  obtain ⟨-, -, hknown⟩ := h.counts (.inr rfl)
  refine ⟨?_, ?_, ?_, ?_⟩
  · intro v hv hhandle
    rcases List.mem_cons.mp hv with rfl | hv
    · exact ⟨_, by rw [hknown _ List.mem_cons_self (hkeeps hhandle)]⟩
    · exact ⟨_, by rw [hknown v (List.mem_cons_of_mem _ hv) hhandle]⟩
  · rintro _ _ ⟨⟩
    rw [Visit.countP_cons] at hcounted ⊢
    dsimp only [Visit.hasHandle] at hcounted ⊢
    omega
  · rintro _ _ ⟨⟩
    rw [Visit.countP_cons] at hinside ⊢
    dsimp only [Visit.isInside] at hinside ⊢
    omega
  · intro _ _ _
    exact ⟨_, List.mem_cons_self, hended⟩

/-- A visit that was the last one is over, and the lock is gone. -/
theorem go_last (h : Serves (some (number, ⟨0, isHeld⟩)) (⟨g, .checking⟩ :: visits)) :
    Serves none (⟨g, .ended⟩ :: visits) := by
  refine ⟨?_, ?_, ?_, ?_⟩
  · intro v hv hhandle
    -- There are no handles left.
    have hcounted := h.counted rfl
    rw [Visit.countP_cons] at hcounted
    rcases List.mem_cons.mp hv with rfl | hv
    · cases hhandle
    · have hnone : visits.countP Visit.hasHandle = 0 :=
        Nat.eq_zero_of_add_eq_zero_right hcounted.symm
      exact absurd hhandle (List.countP_eq_zero.mp hnone v hv)
  all_goals
    intro _ _ hslot
    cases hslot

/-- A visit is over, and the lock stays with those who have handles to it, if there is one. -/
theorem go (h : Serves slot (⟨g, .checking⟩ :: visits))
    (hused : ∀ number lock, slot = some (number, lock) → lock.handles ≠ 0) :
    Serves slot (⟨g, .ended⟩ :: visits) := by
  refine ⟨?_, ?_, ?_, ?_⟩
  · intro v hv hhandle
    rcases List.mem_cons.mp hv with rfl | hv
    · cases hhandle
    · exact h.known v (List.mem_cons_of_mem _ hv) hhandle
  · intro number lock hslot
    rw [h.counted hslot, Visit.countP_cons, Visit.countP_cons]
    rfl
  · intro number lock hslot
    rw [h.held hslot, Visit.countP_cons, Visit.countP_cons]
    rfl
  · intro number lock hslot
    have hcounted := h.counted hslot
    rw [Visit.countP_cons] at hcounted
    have hsome : 0 < visits.countP Visit.hasHandle := by
      have := hused number lock hslot
      simp only [Visit.hasHandle, Visit.Stage.hasHandle, Bool.toNat_false] at hcounted
      omega
    obtain ⟨v, hv, hhandle⟩ := List.countP_pos_iff.mp hsome
    refine ⟨v, List.mem_cons_of_mem _ hv, ?_⟩
    intro hended
    rw [Visit.hasHandle, hended] at hhandle
    cases hhandle

end KeyLocks.Serves

/-! ## The room -/

namespace LockRoom

variable {κ : Type} [DecidableEq κ]

/-- Every key has the lock that its visits need. -/
structure Orderly (s : LockRoom κ) : Prop where
  proper : s.locks.Proper
  serves : ∀ key, KeyLocks.Serves (s.locks.slot? key) (s.visits.filter (fun v => v.key = key))

namespace Orderly

variable {l l' : KeyLocks κ} {v v' : Visit κ} {visits visits' : List (Visit κ)}

theorem empty : (LockRoom.empty : LockRoom κ).Orderly where
  proper := KeyLocks.proper_empty
  serves := by
    intro key
    have hnone : (LockRoom.empty : LockRoom κ).locks.slot? key = none := rfl
    rw [hnone]
    exact ⟨fun _ hv => absurd hv List.not_mem_nil, fun h => (nomatch h), fun h => (nomatch h),
      fun h => (nomatch h)⟩

theorem perm (h : Orderly ⟨l, visits⟩) (hperm : visits.Perm visits') : Orderly ⟨l, visits'⟩ where
  proper := h.proper
  serves := fun key => (h.serves key).perm (hperm.filter _)

/-- Somebody comes to a key. -/
theorem come (h : Orderly ⟨l, visits⟩) (key : κ) :
    Orderly ⟨(l.handle key).2, ⟨(l.handle key).1, .waiting⟩ :: visits⟩ := by
  obtain ⟨hproper, number, lock, hlock, hhandle, hslot⟩ := h.proper.handle key
  refine ⟨hproper, ?_⟩
  intro other
  have hkey : (Visit.mk (l.handle key).1 .waiting).key = key := KeyLocks.handle_key l key
  dsimp only
  rw [hslot, List.filter_cons]
  by_cases hsame : other = key
  · subst hsame
    rw [if_pos rfl, if_pos (decide_eq_true hkey)]
    exact (h.serves other).come hlock (by rw [hhandle])
  · rw [if_neg hsame, if_neg (by rw [hkey]; simpa using Ne.symm hsame)]
    exact h.serves other

/-- A change to a visit and to the lock of its key. -/
theorem front (h : Orderly ⟨l, v :: visits⟩) (hkey : v'.key = v.key) (hproper : l'.Proper)
    (hothers : ∀ key, key ≠ v.key → l'.slot? key = l.slot? key)
    (hserves : KeyLocks.Serves (l.slot? v.key) (v :: visits.filter (fun w => w.key = v.key)) →
      KeyLocks.Serves (l'.slot? v.key) (v' :: visits.filter (fun w => w.key = v.key))) :
    Orderly ⟨l', v' :: visits⟩ := by
  refine ⟨hproper, ?_⟩
  intro key
  have hbefore := h.serves key
  dsimp only at hbefore ⊢
  rw [List.filter_cons] at hbefore ⊢
  by_cases hsame : key = v.key
  · subst hsame
    rw [if_pos (decide_eq_true rfl)] at hbefore
    rw [if_pos (decide_eq_true hkey)]
    exact hserves hbefore
  · have hne : ¬ decide (v.key = key) = true := by simpa using Ne.symm hsame
    rw [if_neg hne] at hbefore
    rw [hkey, if_neg hne, hothers key hsame]
    exact hbefore

section

variable {g : LockHandle κ} {stage stage' : Visit.Stage} {lock : KeyLock}

/-- The lock that a visit has a handle to is the one that its key has. It counts the visit, and it
is held if the visit is inside. -/
theorem serving (h : Orderly ⟨l, ⟨g, stage⟩ :: visits⟩) (hhandle : stage.hasHandle = true) :
    ∃ lock, l.slot? g.key = some (g.number, lock) ∧ 0 < lock.handles ∧
      stage.isInside.toNat ≤ lock.isHeld.toNat := by
  have hserves := h.serves g.key
  have hown : Visit.key ⟨g, stage⟩ = g.key := rfl
  dsimp only at hserves
  rw [List.filter_cons, if_pos (decide_eq_true hown)] at hserves
  obtain ⟨lock, hslot⟩ := hserves.known _ List.mem_cons_self hhandle
  have hcounted := hserves.counted hslot
  have hheld := hserves.held hslot
  have hmine : Visit.hasHandle ⟨g, stage⟩ = true := hhandle
  rw [Visit.countP_cons, hmine] at hcounted
  rw [Visit.countP_cons] at hheld
  refine ⟨lock, hslot, ?_, ?_⟩
  · rw [hcounted]
    exact Nat.succ_pos _
  · rw [hheld]
    exact Nat.le_add_left _ _

/-- A visit goes to another stage and changes its lock accordingly. -/
theorem update (h : Orderly ⟨l, ⟨g, stage⟩ :: visits⟩)
    (hslot : l.slot? g.key = some (g.number, lock)) (change : KeyLock → KeyLock)
    (hhandles : (change lock).handles + stage.hasHandle.toNat =
      lock.handles + stage'.hasHandle.toNat)
    (hheld : (change lock).isHeld.toNat + stage.isInside.toNat =
      lock.isHeld.toNat + stage'.isInside.toNat)
    (hkeeps : stage'.hasHandle = true → stage.hasHandle = true) (hended : stage' ≠ .ended) :
    Orderly ⟨l.update g.number change, ⟨g, stage'⟩ :: visits⟩ := by
  have hafter := h.proper.slot?_update hslot change
  refine h.front rfl (h.proper.update hslot change) ?_ ?_
  · intro key hne
    exact (hafter key).trans (if_neg hne)
  · intro hserves
    have hown : (l.update g.number change).slot? g.key = some (g.number, change lock) :=
      (hafter g.key).trans (if_pos rfl)
    change KeyLocks.Serves (l.slot? g.key) _ at hserves
    change KeyLocks.Serves ((l.update g.number change).slot? g.key) _
    rw [hslot] at hserves
    rw [hown]
    exact hserves.restage hhandles hheld hkeeps hended

end

/-- A visit takes its next step. -/
theorem advance (h : Orderly ⟨l, v :: visits⟩) (patient : Bool) :
    Orderly ⟨(v.advance patient l).1, { v with stage := (v.advance patient l).2 } :: visits⟩ := by
  obtain ⟨g, stage⟩ := v
  cases stage with
  | waiting =>
    obtain ⟨⟨handles, isHeld⟩, hslot, -, -⟩ := h.serving rfl
    have htry := KeyLocks.tryLock_of_slot? hslot
    cases isHeld with
    | false =>
      have htry : l.tryLock g = some _ := htry
      simp only [Visit.advance, htry]
      exact h.update hslot _ rfl rfl (fun _ => rfl) Visit.Stage.noConfusion
    | true =>
      have htry : l.tryLock g = none := htry
      simp only [Visit.advance, htry]
      cases patient with
      | true => exact h
      | false =>
        -- The lock stays as it is.
        refine h.front rfl h.proper (fun _ _ => rfl) ?_
        change KeyLocks.Serves (l.slot? g.key) _ → KeyLocks.Serves (l.slot? g.key) _
        rw [hslot]
        exact fun hserves => hserves.restage rfl rfl (fun _ => rfl) Visit.Stage.noConfusion
  | inside =>
    obtain ⟨⟨handles, isHeld⟩, hslot, -, hheld⟩ := h.serving rfl
    cases isHeld with
    | false => cases hheld
    | true => exact h.update hslot _ rfl rfl (fun _ => rfl) Visit.Stage.noConfusion
  | leaving =>
    obtain ⟨⟨handles, isHeld⟩, hslot, hpos, -⟩ := h.serving rfl
    refine h.update hslot _ ?_ rfl (fun _ => rfl) Visit.Stage.noConfusion
    exact Nat.sub_add_cancel hpos
  | checking =>
    by_cases hunused : ∃ number isHeld, l.slot? g.key = some (number, ⟨0, isHeld⟩)
    · obtain ⟨number, isHeld, hslot⟩ := hunused
      obtain ⟨hproper, hafter⟩ := h.proper.sweep_of_unused hslot
      refine h.front rfl hproper (fun key hne => (hafter key).trans (if_neg hne)) ?_
      have hgone : (l.sweep g.key).slot? g.key = none := (hafter g.key).trans (if_pos rfl)
      change KeyLocks.Serves (l.slot? g.key) _ → KeyLocks.Serves ((l.sweep g.key).slot? g.key) _
      rw [hslot, hgone]
      exact fun hserves => hserves.go_last
    · have hused : ∀ number lock, l.slot? g.key = some (number, lock) → lock.handles ≠ 0 := by
        rintro number ⟨handles, isHeld⟩ hslot rfl
        exact hunused ⟨number, isHeld, hslot⟩
      have hstays : l.sweep g.key = l := h.proper.sweep_of_used hused
      have hadvance : (Visit.mk g .checking).advance patient l = (l, .ended) := by
        simp only [Visit.advance, Visit.key, hstays]
      rw [hadvance]
      exact h.front rfl h.proper (fun _ _ => rfl) (fun hserves => hserves.go hused)
  | ended => exact h

/-- Whatever happens next, the room is in order afterwards. -/
theorem move {s : LockRoom κ} (h : s.Orderly) (m : Move κ) : (s.move m).Orderly := by
  cases m with
  | come key =>
    -- Whoever came last is brought to the front.
    have hfront := List.perm_append_singleton (Visit.mk (s.locks.handle key).1 .waiting) s.visits
    exact (Orderly.come h key).perm hfront.symm
  | advance i patient =>
    unfold LockRoom.move
    dsimp only
    cases hv : s.visits[i]? with
    | none => exact h
    | some v =>
      obtain ⟨hlt, hget⟩ := List.getElem?_eq_some_iff.mp hv
      -- The visit is brought to the front, takes its step, and goes back to its place.
      have hfront : s.visits.Perm (v :: s.visits.eraseIdx i) :=
        hget ▸ (List.getElem_cons_eraseIdx_perm hlt).symm
      exact ((Orderly.perm h hfront).advance patient).perm
        (List.set_perm_cons_eraseIdx hlt _).symm

theorem run {s : LockRoom κ} (h : s.Orderly) (moves : List (Move κ)) : (s.run moves).Orderly := by
  induction moves generalizing s with
  | nil => exact h
  | cons m moves ih => exact ih (h.move m)

end Orderly

end LockRoom

end CauseLists
