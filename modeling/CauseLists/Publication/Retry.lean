-- Trying again after a conflict, with a wait that doubles from one attempt to the next.
import CauseLists.Settings
import CauseLists.Supersession.Engine

namespace CauseLists

/-- How often a commit is tried, and how long one waits in between. -/
structure RetryPolicy where
  maxAttempts : Nat
  /-- Milliseconds. -/
  initialBackoff : Nat
  /-- Milliseconds. -/
  maxBackoff : Nat
deriving DecidableEq, Repr, Inhabited

/-- The attempts that settings allow. -/
def Settings.retryPolicy (s : Settings) : RetryPolicy :=
  ⟨s.maxAttempts, s.initialBackoff, s.maxBackoff⟩

/-- The longest wait that can be told, in milliseconds: 2^64 seconds, and one millisecond less. -/
def longestWait : Nat := Nat.pow 2 64 * 1000 - 1

/-- So many times a wait, or the longest one. -/
def stretch (wait times : Nat) : Nat := min (wait * times) longestWait

/-- The wait doubles no further than this many times. -/
def maxDoublings : Nat := 16

/-- The result of trying something until it met no conflict or the attempts were used up. -/
structure Tried (α : Type) where
  result : Except CommitError α
  attempts : Nat
  /-- The waits between the attempts, in milliseconds. -/
  waits : List Nat

namespace RetryPolicy

/-- The wait after an attempt that failed; the first attempt is number 1. -/
def backoffAfter (p : RetryPolicy) (attempt : Nat) : Nat :=
  min (stretch p.initialBackoff (Nat.pow 2 (min (attempt - 1) maxDoublings))) p.maxBackoff

/-- Does something, and again after each conflict while attempts are left. -/
def tryFrom {α σ : Type} (p : RetryPolicy) (act : σ → Except CommitError α × σ) (attempt : Nat) :
    (left : Nat) → σ → Tried α × σ
  | left, s =>
    match act s with
    | (.error (.conflict subject contention), s) =>
      match left with
      | 0 => (⟨.error (.conflict subject contention), attempt, []⟩, s)
      | left + 1 =>
        let (tried, s) := p.tryFrom act (attempt + 1) left s
        ({ tried with waits := p.backoffAfter attempt :: tried.waits }, s)
    | (result, s) => (⟨result, attempt, []⟩, s)

/-- Does something at least once, and again after each conflict while attempts are left. -/
def run {α σ : Type} (p : RetryPolicy) (act : σ → Except CommitError α × σ) (s : σ) :
    Tried α × σ :=
  p.tryFrom act 1 (p.maxAttempts - 1) s

end RetryPolicy

end CauseLists
