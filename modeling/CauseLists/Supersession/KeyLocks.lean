-- Locks, one for each key that somebody works on. A lock is made when it is first asked for and
-- goes away with its last handle, so there are never more locks than keys in use.
import CauseLists.Table

namespace CauseLists

/-- A lock. -/
structure KeyLock where
  /-- How many handles were given out and are not dropped yet. -/
  handles : Nat
  isHeld : Bool
deriving DecidableEq, Repr, Inhabited

/-- The locks of keys. Every lock has a number of its own: a key whose lock went away gets a new
one with another number. -/
structure KeyLocks (κ : Type) where
  /-- The lock that a key has now. -/
  numbers : Table κ Nat
  locks : Table Nat KeyLock
  /-- The number of the next lock. -/
  next : Nat
deriving Repr, Inhabited

/-- The use of a lock by one client. -/
structure LockHandle (κ : Type) where
  key : κ
  number : Nat
deriving DecidableEq, Repr, Inhabited

namespace KeyLocks

variable {κ : Type} [DecidableEq κ]

/-- No locks. -/
def empty : KeyLocks κ := ⟨[], [], 0⟩

/-- A change to one lock. -/
def update (l : KeyLocks κ) (number : Nat) (change : KeyLock → KeyLock) : KeyLocks κ :=
  match Table.get? number l.locks with
  | some lock => { l with locks := Table.put number (change lock) l.locks }
  | none => l

/-- Gives out a handle to the lock of a key, which is made if there is none. -/
def handle (l : KeyLocks κ) (key : κ) : LockHandle κ × KeyLocks κ :=
  match Table.get? key l.numbers with
  | some number =>
    (⟨key, number⟩, l.update number (fun lock => { lock with handles := lock.handles + 1 }))
  | none =>
    (⟨key, l.next⟩,
      ⟨Table.put key l.next l.numbers, Table.put l.next ⟨1, false⟩ l.locks, l.next + 1⟩)

/-- Takes a lock; `none` if somebody has it. -/
def tryLock (l : KeyLocks κ) (h : LockHandle κ) : Option (KeyLocks κ) :=
  match Table.get? h.number l.locks with
  | some lock =>
    if lock.isHeld then none
    else some (l.update h.number (fun lock => { lock with isHeld := true }))
  | none => none

/-- Gives a lock back. -/
def unlock (l : KeyLocks κ) (h : LockHandle κ) : KeyLocks κ :=
  l.update h.number (fun lock => { lock with isHeld := false })

/-- Drops a handle. -/
def drop (l : KeyLocks κ) (h : LockHandle κ) : KeyLocks κ :=
  l.update h.number (fun lock => { lock with handles := lock.handles - 1 })

/-- Takes the lock of a key away if nobody has a handle to it. -/
def sweep (l : KeyLocks κ) (key : κ) : KeyLocks κ :=
  match Table.get? key l.numbers with
  | none => l
  | some number =>
    match Table.get? number l.locks with
    | some ⟨0, _⟩ =>
      { l with numbers := Table.erase key l.numbers, locks := Table.erase number l.locks }
    | _ => l

/-- Drops a handle, and the lock with it if it was the last one. -/
def release (l : KeyLocks κ) (h : LockHandle κ) : KeyLocks κ := (l.drop h).sweep h.key

end KeyLocks

end CauseLists
