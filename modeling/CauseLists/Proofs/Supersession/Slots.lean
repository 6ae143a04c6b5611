-- The locks by their keys. Every lock that exists is that of one key, so the locks are told by the
-- lock that each key has, and each of the steps in which a lock is used changes what is said of one
-- key only.
import CauseLists.Proofs.Supersession.Locks

namespace CauseLists

namespace KeyLocks

variable {κ : Type} [DecidableEq κ]

/-- The lock that a key has now, with its number. -/
def slot? (l : KeyLocks κ) (key : κ) : Option (Nat × KeyLock) :=
  (Table.get? key l.numbers).bind
    (fun number => (Table.get? number l.locks).map (fun lock => (number, lock)))

theorem slot?_eq_some_iff {l : KeyLocks κ} {key : κ} {number : Nat} {lock : KeyLock} :
    l.slot? key = some (number, lock) ↔
      Table.get? key l.numbers = some number ∧ Table.get? number l.locks = some lock := by
  unfold slot?
  constructor
  · intro h
    obtain ⟨n, hnumber, hlock⟩ := Option.bind_eq_some_iff.mp h
    obtain ⟨other, hother, hpair⟩ := Option.map_eq_some_iff.mp hlock
    obtain ⟨rfl, rfl⟩ := Prod.mk.inj hpair
    exact ⟨hnumber, hother⟩
  · rintro ⟨hnumber, hlock⟩
    simp [hnumber, hlock]

/-- The locks with one more, made for a key that has none and with one handle to it. -/
def added (l : KeyLocks κ) (key : κ) : KeyLocks κ :=
  ⟨Table.put key l.next l.numbers, Table.put l.next ⟨1, false⟩ l.locks, l.next + 1⟩

/-- The locks without one, and without the number under which its key had it. -/
def without (l : KeyLocks κ) (key : κ) (number : Nat) : KeyLocks κ :=
  { l with numbers := Table.erase key l.numbers, locks := Table.erase number l.locks }

/-- Keys and locks belong together: every key that is listed has a lock of its own, and there are no
other locks. -/
structure Proper (l : KeyLocks κ) : Prop where
  listed : ∀ {key number}, Table.get? key l.numbers = some number →
    ∃ lock, Table.get? number l.locks = some lock
  apart : ∀ {key other number}, Table.get? key l.numbers = some number →
    Table.get? other l.numbers = some number → other = key
  kept : ∀ {number lock}, Table.get? number l.locks = some lock →
    ∃ key, Table.get? key l.numbers = some number
  below : ∀ {key number}, Table.get? key l.numbers = some number → number < l.next

theorem proper_empty : (empty : KeyLocks κ).Proper where
  listed := by simp [empty]
  apart := by simp [empty]
  kept := by simp [empty]
  below := by simp [empty]

namespace Proper

variable {l : KeyLocks κ}

theorem slot?_eq_none_iff (h : l.Proper) (key : κ) :
    l.slot? key = none ↔ Table.get? key l.numbers = none := by
  constructor
  · intro hnone
    cases hnumber : Table.get? key l.numbers with
    | none => rfl
    | some number =>
      obtain ⟨lock, hlock⟩ := h.listed hnumber
      rw [slot?_eq_some_iff.mpr ⟨hnumber, hlock⟩] at hnone
      cases hnone
  · intro hnone
    simp [slot?, hnone]

/-- Another key has another lock. -/
theorem number_ne (h : l.Proper) {key other : κ} {number n : Nat}
    (hnumber : Table.get? key l.numbers = some number) (hne : other ≠ key)
    (hother : Table.get? other l.numbers = some n) : n ≠ number := by
  rintro rfl
  exact hne (h.apart hnumber hother)

/-! ## A change to the lock of a key -/

section

variable {g : LockHandle κ} {lock : KeyLock}

theorem update (h : l.Proper) (hslot : l.slot? g.key = some (g.number, lock))
    (change : KeyLock → KeyLock) : (l.update g.number change).Proper where
  listed := by
    intro key number hnumber
    rw [update_numbers] at hnumber
    obtain ⟨old, hold⟩ := h.listed hnumber
    rw [get?_update]
    split
    · rename_i hsame
      exact ⟨_, by rw [← hsame, hold]; rfl⟩
    · exact ⟨old, hold⟩
  apart := by
    intro key other number hkey hother
    rw [update_numbers] at hkey hother
    exact h.apart hkey hother
  kept := by
    intro number new hnew
    rw [get?_update] at hnew
    rw [update_numbers]
    split at hnew
    · rename_i hsame
      exact ⟨g.key, hsame ▸ (slot?_eq_some_iff.mp hslot).1⟩
    · exact h.kept hnew
  below := by
    intro key number hnumber
    rw [update_numbers] at hnumber
    rw [update_next]
    exact h.below hnumber

theorem slot?_update (h : l.Proper) (hslot : l.slot? g.key = some (g.number, lock))
    (change : KeyLock → KeyLock) (key : κ) : (l.update g.number change).slot? key =
      if key = g.key then some (g.number, change lock) else l.slot? key := by
  obtain ⟨hnumber, hlock⟩ := slot?_eq_some_iff.mp hslot
  unfold slot?
  rw [update_numbers]
  split
  · rename_i hsame
    rw [hsame, hnumber]
    simp [get?_update, hlock]
  · rename_i hother
    cases hkey : Table.get? key l.numbers with
    | none => rfl
    | some number => simp [get?_update, h.number_ne hnumber hother hkey]

end

/-! ## Coming and going -/

theorem added (h : l.Proper) {key : κ} (hnone : Table.get? key l.numbers = none) :
    (l.added key).Proper where
  listed := by
    intro other number hother
    unfold KeyLocks.added at hother ⊢
    rw [Table.get?_put] at hother ⊢
    split at hother
    · exact ⟨⟨1, false⟩, by rw [if_pos (Option.some.inj hother).symm]⟩
    · obtain ⟨lock, hlock⟩ := h.listed hother
      have hne : number ≠ l.next := Nat.ne_of_lt (h.below hother)
      exact ⟨lock, by rw [if_neg hne, hlock]⟩
  apart := by
    intro a b number ha hb
    unfold KeyLocks.added at ha hb
    rw [Table.get?_put] at ha hb
    split at ha
    · rename_i hakey
      obtain rfl := Option.some.inj ha
      split at hb
      · rename_i hbkey
        exact hbkey.trans hakey.symm
      · exact absurd (h.below hb) (Nat.lt_irrefl _)
    · split at hb
      · obtain rfl := Option.some.inj hb
        exact absurd (h.below ha) (Nat.lt_irrefl _)
      · exact h.apart ha hb
  kept := by
    intro number lock hlock
    unfold KeyLocks.added at hlock ⊢
    rw [Table.get?_put] at hlock
    split at hlock
    · rename_i hsame
      exact ⟨key, by rw [Table.get?_put_self, hsame]⟩
    · obtain ⟨other, hother⟩ := h.kept hlock
      have hne : other ≠ key := by
        rintro rfl
        rw [hnone] at hother
        cases hother
      exact ⟨other, by rw [Table.get?_put_of_ne hne, hother]⟩
  below := by
    intro other number hother
    unfold KeyLocks.added at hother ⊢
    rw [Table.get?_put] at hother
    dsimp only
    split at hother
    · obtain rfl := Option.some.inj hother
      omega
    · have := h.below hother
      omega

theorem slot?_added (h : l.Proper) (key other : κ) : (l.added key).slot? other =
    if other = key then some (l.next, ⟨1, false⟩) else l.slot? other := by
  unfold slot? KeyLocks.added
  dsimp only
  rw [Table.get?_put]
  split
  · simp
  · cases hother : Table.get? other l.numbers with
    | none => rfl
    | some number =>
      have hne : number ≠ l.next := Nat.ne_of_lt (h.below hother)
      simp [Table.get?_put_of_ne hne]

/-- Whoever comes for a key gets a handle to the lock that it has or that is made for it. -/
theorem handle (h : l.Proper) (key : κ) :
    (l.handle key).2.Proper ∧ ∃ number lock,
      (l.slot? key = none ∧ lock = ⟨0, false⟩ ∨ l.slot? key = some (number, lock)) ∧
      (l.handle key).1 = ⟨key, number⟩ ∧
      ∀ other, (l.handle key).2.slot? other =
        if other = key then some (number, { lock with handles := lock.handles + 1 })
        else l.slot? other := by
  cases hnumber : Table.get? key l.numbers with
  | some number =>
    obtain ⟨lock, hlock⟩ := h.listed hnumber
    have hslot : l.slot? key = some (number, lock) := slot?_eq_some_iff.mpr ⟨hnumber, hlock⟩
    rw [handle_of_get?_some hnumber]
    exact ⟨h.update (g := ⟨key, number⟩) hslot _, number, lock, .inr hslot, rfl,
      h.slot?_update (g := ⟨key, number⟩) hslot _⟩
  | none =>
    rw [handle_of_get?_none hnumber]
    exact ⟨h.added hnumber, l.next, ⟨0, false⟩,
      .inl ⟨(h.slot?_eq_none_iff key).mpr hnumber, rfl⟩, rfl, h.slot?_added key⟩

section

variable {key : κ} {number : Nat}

theorem without (h : l.Proper) (hnumber : Table.get? key l.numbers = some number) :
    (l.without key number).Proper where
  listed := by
    intro other n hother
    unfold KeyLocks.without at hother ⊢
    rw [Table.get?_erase] at hother
    split at hother
    · cases hother
    · rename_i hne
      rw [Table.get?_erase_of_ne (h.number_ne hnumber hne hother)]
      exact h.listed hother
  apart := by
    intro a b n ha hb
    unfold KeyLocks.without at ha hb
    rw [Table.get?_erase] at ha hb
    split at ha
    · cases ha
    · split at hb
      · cases hb
      · exact h.apart ha hb
  kept := by
    intro n lock hkept
    unfold KeyLocks.without at hkept ⊢
    rw [Table.get?_erase] at hkept
    split at hkept
    · cases hkept
    · rename_i hne
      obtain ⟨other, hother⟩ := h.kept hkept
      have hother' : other ≠ key := by
        rintro rfl
        exact hne (Option.some.inj (hother.symm.trans hnumber))
      exact ⟨other, by rw [Table.get?_erase_of_ne hother', hother]⟩
  below := by
    intro other n hother
    unfold KeyLocks.without at hother ⊢
    rw [Table.get?_erase] at hother
    split at hother
    · cases hother
    · exact h.below hother

theorem slot?_without (h : l.Proper) (hnumber : Table.get? key l.numbers = some number)
    (other : κ) :
    (l.without key number).slot? other = if other = key then none else l.slot? other := by
  unfold slot? KeyLocks.without
  dsimp only
  rw [Table.get?_erase]
  split
  · rfl
  · rename_i hne
    cases hother : Table.get? other l.numbers with
    | none => rfl
    | some n => simp [Table.get?_erase_of_ne (h.number_ne hnumber hne hother)]

end

/-- A lock that nobody has a handle to goes away when it is looked at. -/
theorem sweep_of_unused (h : l.Proper) {key : κ} {number : Nat} {isHeld : Bool}
    (hslot : l.slot? key = some (number, ⟨0, isHeld⟩)) :
    (l.sweep key).Proper ∧
      ∀ other, (l.sweep key).slot? other = if other = key then none else l.slot? other := by
  obtain ⟨hnumber, hlock⟩ := slot?_eq_some_iff.mp hslot
  have hsweep : l.sweep key = l.without key number := by
    simp [sweep, hnumber, hlock, KeyLocks.without]
  rw [hsweep]
  exact ⟨h.without hnumber, h.slot?_without hnumber⟩

/-- A lock that somebody has a handle to stays. -/
theorem sweep_of_used (h : l.Proper) {key : κ}
    (hused : ∀ number lock, l.slot? key = some (number, lock) → lock.handles ≠ 0) :
    l.sweep key = l := by
  unfold sweep
  cases hnumber : Table.get? key l.numbers with
  | none => rfl
  | some number =>
    obtain ⟨⟨handles, isHeld⟩, hlock⟩ := h.listed hnumber
    have hhandles : handles ≠ 0 := hused number _ (slot?_eq_some_iff.mpr ⟨hnumber, hlock⟩)
    obtain ⟨more, rfl⟩ := Nat.exists_eq_succ_of_ne_zero hhandles
    simp [hlock]

end Proper

/-- A lock can be had if nobody holds it. -/
theorem tryLock_of_slot? {l : KeyLocks κ} {g : LockHandle κ} {lock : KeyLock}
    (hslot : l.slot? g.key = some (g.number, lock)) :
    l.tryLock g = if lock.isHeld then none
      else some (l.update g.number (fun lock => { lock with isHeld := true })) := by
  simp [tryLock, (slot?_eq_some_iff.mp hslot).2]

end KeyLocks

end CauseLists
