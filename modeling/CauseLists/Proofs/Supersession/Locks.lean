-- Who holds which lock. While nobody works on a key it has no lock, a lock that is held cannot be
-- had, and one that was had and given back leaves nothing behind. So the locks of the keys say at
-- every moment who is at work, and no more than that.
import CauseLists.Proofs.Tables
import CauseLists.Supersession.KeyLocks
import Mathlib.Data.List.Nodup
import Mathlib.Data.List.Perm.Basic

namespace CauseLists

namespace KeyLocks

variable {κ : Type}

/-! ## Changes to one lock -/

theorem update_of_get?_some {l : KeyLocks κ} {number : Nat} {lock : KeyLock}
    (h : Table.get? number l.locks = some lock) (change : KeyLock → KeyLock) :
    l.update number change = { l with locks := Table.put number (change lock) l.locks } := by
  simp [update, h]

@[simp] theorem update_numbers (l : KeyLocks κ) (number : Nat) (change : KeyLock → KeyLock) :
    (l.update number change).numbers = l.numbers := by
  unfold update
  split <;> rfl

@[simp] theorem update_next (l : KeyLocks κ) (number : Nat) (change : KeyLock → KeyLock) :
    (l.update number change).next = l.next := by
  unfold update
  split <;> rfl

theorem get?_update (l : KeyLocks κ) (number other : Nat) (change : KeyLock → KeyLock) :
    Table.get? other (l.update number change).locks =
      if other = number then (Table.get? number l.locks).map change
      else Table.get? other l.locks := by
  unfold update
  split
  · rename_i lock hlock
    rw [Table.get?_put, hlock]
    rfl
  · rename_i hnone
    split
    · rename_i hsame
      rw [hsame, hnone]
      rfl
    · rfl

/-! ## Handles -/

variable [DecidableEq κ]

@[simp] theorem handle_key (l : KeyLocks κ) (key : κ) : (l.handle key).1.key = key := by
  unfold handle
  split <;> rfl

theorem mk_handle_number (l : KeyLocks κ) (key : κ) :
    LockHandle.mk key (l.handle key).1.number = (l.handle key).1 :=
  congrArg (fun k => LockHandle.mk k (l.handle key).1.number) (handle_key l key).symm

/-- A key that has no lock yet gets one, which nobody holds and which has one handle. -/
theorem handle_of_get?_none {l : KeyLocks κ} {key : κ} (h : Table.get? key l.numbers = none) :
    l.handle key = (⟨key, l.next⟩,
      ⟨Table.put key l.next l.numbers, Table.put l.next ⟨1, false⟩ l.locks, l.next + 1⟩) := by
  simp [handle, h]

/-- The lock that a key has gets one more handle. -/
theorem handle_of_get?_some {l : KeyLocks κ} {key : κ} {number : Nat}
    (h : Table.get? key l.numbers = some number) : l.handle key = (⟨key, number⟩,
      l.update number (fun lock => { lock with handles := lock.handles + 1 })) := by
  simp [handle, h]

/-! ## Locks that nobody holds -/

/-- Nobody holds a lock. -/
def Free (l : KeyLocks κ) : Prop :=
  ∀ key number, Table.get? key l.numbers = some number →
    ∃ lock, Table.get? number l.locks = some lock ∧ lock.isHeld = false

/-- While nobody holds a lock every lock can be had. -/
theorem Free.tryLock {l : KeyLocks κ} (h : l.Free) (key : κ) :
    ∃ l', (l.handle key).2.tryLock (l.handle key).1 = some l' := by
  cases hnumber : Table.get? key l.numbers with
  | none => simp [handle_of_get?_none hnumber, KeyLocks.tryLock]
  | some number =>
    obtain ⟨lock, hlock, hheld⟩ := h key number hnumber
    simp [handle_of_get?_some hnumber, KeyLocks.tryLock, get?_update, hlock, hheld]

/-! ## Locks and their holders -/

/-- Exactly these handles hold locks, at most one for each key, and nobody else waits. -/
structure HeldBy (l : KeyLocks κ) (held : List (LockHandle κ)) : Prop where
  keys : (held.map LockHandle.key).Nodup
  numbers : (held.map LockHandle.number).Nodup
  listed : ∀ key number, Table.get? key l.numbers = some number ↔ ⟨key, number⟩ ∈ held
  taken : ∀ h ∈ held, Table.get? h.number l.locks = some ⟨1, true⟩
  below : ∀ {number lock}, Table.get? number l.locks = some lock → number < l.next

theorem heldBy_empty : (empty : KeyLocks κ).HeldBy [] where
  keys := List.nodup_nil
  numbers := List.nodup_nil
  listed := by simp [empty]
  taken := by simp
  below := by simp [empty]

variable {l : KeyLocks κ} {held : List (LockHandle κ)}

theorem HeldBy.perm {held' : List (LockHandle κ)} (h : l.HeldBy held) (hperm : held.Perm held') :
    l.HeldBy held' where
  keys := (hperm.map _).nodup_iff.mp h.keys
  numbers := (hperm.map _).nodup_iff.mp h.numbers
  listed := fun key number => (h.listed key number).trans hperm.mem_iff
  taken := fun g hg => h.taken g (hperm.mem_iff.mpr hg)
  below := h.below

theorem HeldBy.free (h : l.HeldBy []) : l.Free := by
  intro key number hnumber
  cases (h.listed key number).mp hnumber

/-- Whoever asks for a key that nobody works on gets its lock. -/
theorem HeldBy.admit (h : l.HeldBy held) {key : κ} (hkey : key ∉ held.map LockHandle.key) :
    ∃ l', (l.handle key).2.tryLock (l.handle key).1 = some l' ∧
      l'.HeldBy ((l.handle key).1 :: held) := by
  have hnone : Table.get? key l.numbers = none := by
    cases hnumber : Table.get? key l.numbers with
    | none => rfl
    | some number =>
      exact absurd (List.mem_map.mpr ⟨_, (h.listed key number).mp hnumber, rfl⟩) hkey
  have hnext : l.next ∉ held.map LockHandle.number := by
    intro hmem
    obtain ⟨g, hg, hnumber⟩ := List.mem_map.mp hmem
    exact Nat.lt_irrefl _ (hnumber ▸ h.below (h.taken g hg))
  -- The key has no number yet, so a lock is made for it, under a number that nobody has.
  rw [handle_of_get?_none hnone]
  refine ⟨_, by simp only [KeyLocks.tryLock, Table.get?_put_self]; rfl, ?_⟩
  refine ⟨List.nodup_cons.mpr ⟨hkey, h.keys⟩, List.nodup_cons.mpr ⟨hnext, h.numbers⟩, ?_, ?_, ?_⟩
  · intro key' number
    rw [update_numbers, Table.get?_put, List.mem_cons]
    split
    · rename_i hsame
      subst hsame
      have hout : (⟨key', number⟩ : LockHandle κ) ∉ held :=
        fun hmem => hkey (List.mem_map.mpr ⟨_, hmem, rfl⟩)
      simp [hout, eq_comm]
    · rename_i hne
      rw [h.listed]
      simp [hne]
  · intro g hg
    rw [get?_update]
    rcases List.mem_cons.mp hg with rfl | hg
    · simp
    · have hne : g.number ≠ l.next := fun hsame => hnext (List.mem_map.mpr ⟨g, hg, hsame⟩)
      rw [if_neg hne]
      exact (Table.get?_put_of_ne hne _ _).trans (h.taken g hg)
  · intro number lock hlock
    rw [get?_update] at hlock
    rw [update_next]
    show number < l.next + 1
    split at hlock
    · omega
    · rename_i hne
      have := h.below ((Table.get?_put_of_ne hne _ _).symm.trans hlock)
      omega

/-- Whoever asks for a key that somebody works on does not get its lock, and leaves the locks as
they were. -/
theorem HeldBy.refuse (h : l.HeldBy held) {key : κ} (hkey : key ∈ held.map LockHandle.key) :
    (l.handle key).2.tryLock (l.handle key).1 = none ∧
      (l.handle key).2.release (l.handle key).1 = l := by
  obtain ⟨⟨key', number⟩, hmem, rfl⟩ := List.mem_map.mp hkey
  have hnumber := (h.listed key' number).mpr hmem
  have htaken : Table.get? number l.locks = some ⟨1, true⟩ := h.taken _ hmem
  have hhandle : l.handle key' =
      (⟨key', number⟩, { l with locks := Table.put number ⟨2, true⟩ l.locks }) := by
    rw [handle_of_get?_some hnumber, update_of_get?_some htaken]
  have hdrop : ({ l with locks := Table.put number ⟨2, true⟩ l.locks } : KeyLocks κ).drop
      ⟨key', number⟩ = l := by
    have htwo : Table.get? number (Table.put number (⟨2, true⟩ : KeyLock) l.locks) =
        some ⟨2, true⟩ := Table.get?_put_self _ _ _
    rw [drop, update_of_get?_some htwo]
    dsimp only
    rw [Table.put_put_of_get?_some _ htaken]
  rw [hhandle]
  constructor
  · simp [KeyLocks.tryLock]
  · rw [release, hdrop]
    simp [sweep, hnumber, htaken]

/-- A lock that is given back goes away. -/
theorem HeldBy.leave {g : LockHandle κ} (h : l.HeldBy (g :: held)) :
    ((l.unlock g).release g).HeldBy held := by
  obtain ⟨key, number⟩ := g
  have hnumber := (h.listed key number).mpr List.mem_cons_self
  have htaken : Table.get? number l.locks = some ⟨1, true⟩ := h.taken _ List.mem_cons_self
  obtain ⟨hkey, hkeys⟩ := List.nodup_cons.mp h.keys
  obtain ⟨hout, hnumbers⟩ := List.nodup_cons.mp h.numbers
  have hunlock : (l.unlock ⟨key, number⟩).drop ⟨key, number⟩ =
      { l with locks := Table.put number ⟨0, false⟩ (Table.put number ⟨1, false⟩ l.locks) } := by
    have hone : Table.get? number (Table.put number (⟨1, false⟩ : KeyLock) l.locks) =
        some ⟨1, false⟩ := Table.get?_put_self _ _ _
    rw [unlock, update_of_get?_some htaken, drop, update_of_get?_some hone]
    rfl
  have hleft : (l.unlock ⟨key, number⟩).release ⟨key, number⟩ =
      { l with
        numbers := Table.erase key l.numbers
        locks := Table.erase number
          (Table.put number ⟨0, false⟩ (Table.put number ⟨1, false⟩ l.locks)) } := by
    rw [release, hunlock]
    simp [sweep, hnumber]
  -- It was alone on its lock, so the lock and the number of the key are dropped.
  have hget : ∀ other, other ≠ number → Table.get? other (Table.erase number
      (Table.put number ⟨0, false⟩ (Table.put number ⟨1, false⟩ l.locks))) =
      Table.get? other l.locks := by
    intro other hne
    rw [Table.get?_erase_of_ne hne, Table.get?_put_of_ne hne, Table.get?_put_of_ne hne]
  rw [hleft]
  refine ⟨hkeys, hnumbers, ?_, ?_, ?_⟩
  · intro key' number'
    show Table.get? key' (Table.erase key l.numbers) = some number' ↔ _
    rw [Table.get?_erase]
    split
    · rename_i hsame
      subst hsame
      have hnone : (⟨key', number'⟩ : LockHandle κ) ∉ held :=
        fun hmem => hkey (List.mem_map.mpr ⟨_, hmem, rfl⟩)
      simp [hnone]
    · rename_i hne
      rw [h.listed, List.mem_cons]
      simp [hne]
  · intro g hg
    have hne : g.number ≠ number := fun hsame => hout (List.mem_map.mpr ⟨g, hg, hsame⟩)
    exact (hget g.number hne).trans (h.taken g (List.mem_cons_of_mem _ hg))
  · intro other lock hlock
    by_cases hne : other = number
    · rw [hne, Table.get?_erase_self] at hlock
      cases hlock
    · exact h.below ((hget other hne).symm.trans hlock)

/-! ## Locks that nobody works under -/

/-- Nobody holds a lock: whoever has a handle still waits. The numbers of the locks run below the
next one. -/
structure Idle (l : KeyLocks κ) : Prop where
  waiting : ∀ key number, Table.get? key l.numbers = some number →
    ∃ handles, Table.get? number l.locks = some ⟨handles + 1, false⟩
  below : ∀ {number lock}, Table.get? number l.locks = some lock → number < l.next

theorem Idle.free (h : l.Idle) : l.Free := by
  intro key number hnumber
  obtain ⟨handles, hlock⟩ := h.waiting key number hnumber
  exact ⟨_, hlock, rfl⟩

theorem Idle.skip (h : l.Idle) {n : Nat} (hn : l.next ≤ n) : ({ l with next := n }).Idle where
  waiting := h.waiting
  below := fun hlock => Nat.lt_of_lt_of_le (h.below hlock) hn

/-- A lock that was taken and given back leaves the others as they were, and the waiting too. -/
theorem Idle.take (h : l.Idle) (key : κ) :
    ∃ held n, (l.handle key).2.tryLock (l.handle key).1 = some held ∧ l.next ≤ n ∧
      (held.unlock (l.handle key).1).release (l.handle key).1 = { l with next := n } := by
  cases hnumber : Table.get? key l.numbers with
  | none =>
    have hnew : Table.get? l.next l.locks = none := by
      cases hlock : Table.get? l.next l.locks with
      | none => rfl
      | some lock => exact absurd (h.below hlock) (Nat.lt_irrefl _)
    rw [handle_of_get?_none hnumber]
    -- The lock was made for this one handle, so it goes away with it.
    refine ⟨_, l.next + 1, by simp only [KeyLocks.tryLock, Table.get?_put_self]; rfl,
      Nat.le_succ _, ?_⟩
    simp [update, unlock, release, drop, sweep, Table.erase_of_get?_none hnumber,
      Table.erase_of_get?_none hnew]
  | some number =>
    obtain ⟨handles, hlock⟩ := h.waiting key number hnumber
    rw [handle_of_get?_some hnumber, update_of_get?_some hlock]
    -- Those who wait keep the lock in place.
    refine ⟨_, l.next, by simp only [KeyLocks.tryLock, Table.get?_put_self]; rfl, Nat.le_refl _, ?_⟩
    simp [update, unlock, release, drop, sweep, hnumber, Table.put_get?_some hlock, hlock]

end KeyLocks

end CauseLists
