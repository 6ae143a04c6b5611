-- Runs of the ledger. A run is any row of commits and expiries, carried out or refused, at any
-- instants. After every run the index, the chains, the sequence numbers and the links between the
-- artefacts are in step, for every key.
import CauseLists.Proofs.Ledger.Steps
import CauseLists.Proofs.ListType

namespace CauseLists

namespace Ledger

/-! ## Calls -/

/-- A call to the ledger. What is committed is always a new artefact. -/
inductive Call
  | commit (id : ArtefactId) (envelope : Envelope) (body : StoredBody) (receivedAt : Instant)
      (supersedes : Option ArtefactId) (now : Instant)
  | expire (id : ArtefactId) (now : Instant)
deriving DecidableEq, Repr

namespace Call

/-- The identifier that a call brings along for a new artefact. -/
def newId? : Call → Option ArtefactId
  | .commit id _ _ _ _ _ => some id
  | .expire _ _ => none

/-- The answer of the ledger to a call, and what the call leaves of it. -/
def answer (l : Ledger) : Call → Except LedgerError Artefact × Ledger
  | .commit id envelope body receivedAt supersedes now =>
    l.commit ⟨.new id envelope body receivedAt, supersedes, now⟩
  | .expire id now => l.expire id now

end Call

/-- The ledger after a call. -/
def call (l : Ledger) (c : Call) : Ledger := (c.answer l).2

/-- The ledger after some calls, from nothing. -/
def run (calls : List Call) : Ledger := calls.foldl call empty

/-- The identifiers that some calls bring along. -/
def newIds (calls : List Call) : List ArtefactId := calls.filterMap Call.newId?

theorem run_concat (calls : List Call) (c : Call) : run (calls ++ [c]) = (run calls).call c := by
  simp [run]

theorem newIds_concat (calls : List Call) (c : Call) :
    newIds (calls ++ [c]) = newIds calls ++ c.newId?.toList := by
  cases h : c.newId? <;> simp [newIds, h]

/-! ## One call -/

theorem call_of_ok {l l' : Ledger} {c : Call} {a : Artefact} (h : c.answer l = (.ok a, l')) :
    l.call c = l' := by
  rw [call, h]

/-- A call that is refused changes nothing. -/
theorem call_of_error {l l' : Ledger} {c : Call} {e : LedgerError}
    (h : c.answer l = (.error e, l')) : l.call c = l := by
  rw [call, h]
  cases c with
  | commit id envelope body receivedAt supersedes now => exact commit_of_error h
  | expire id now => exact expire_of_error h

theorem coherent_call {l : Ledger} (h : Coherent l) (c : Call)
    (hnew : ∀ id, c.newId? = some id → l.get? id = none) : Coherent (l.call c) := by
  rcases hanswer : c.answer l with ⟨e | b, l'⟩
  · exact (call_of_error hanswer).symm ▸ h
  · rw [call_of_ok hanswer]
    cases c with
    | commit id envelope body receivedAt supersedes now =>
      exact coherent_commit h hanswer (hnew id rfl) rfl rfl rfl
    | expire id now => exact coherent_expire h hanswer

/-- The ledger holds no artefact that was neither there before nor brought along. -/
theorem get?_of_call {l : Ledger} {c : Call} {id : ArtefactId} {a : Artefact}
    (ha : (l.call c).get? id = some a) : (∃ b, l.get? id = some b) ∨ c.newId? = some id := by
  rcases hanswer : c.answer l with ⟨e | b, l'⟩
  · rw [call_of_error hanswer] at ha
    exact .inl ⟨a, ha⟩
  · rw [call_of_ok hanswer] at ha
    cases c with
    | expire other now =>
      obtain ⟨c, hc, -⟩ := record_of_expire hanswer ha
      exact .inl ⟨c, hc⟩
    | commit new envelope body receivedAt supersedes now =>
      rcases record_of_commit hanswer ha with ⟨hid, -⟩ | ⟨d, hd, -⟩
      · exact .inr (congrArg some hid.symm)
      · exact .inl ⟨d, hd⟩

/-- A call counts one commit at most. -/
theorem lastSequence_call (l : Ledger) (c : Call) :
    (l.call c).lastSequence ≤ l.lastSequence + c.newId?.toList.length := by
  rcases hanswer : c.answer l with ⟨e | b, l'⟩
  · rw [call_of_error hanswer]
    exact Nat.le_add_right _ _
  · rw [call_of_ok hanswer]
    cases c with
    | expire id now =>
      obtain ⟨old, -, -, rfl⟩ := expire_eq_ok hanswer
      exact Nat.le_add_right _ _
    | commit new envelope body receivedAt supersedes now =>
      exact Nat.le_of_eq (commit_lastSequence hanswer)

/-! ## Whole runs -/

/-- The invariant of a run in which no identifier comes twice. -/
theorem coherent_run (calls : List Call) (hfresh : (newIds calls).Nodup) :
    Coherent (run calls) ∧ (∀ id a, (run calls).get? id = some a → id ∈ newIds calls) ∧
      (run calls).lastSequence ≤ (newIds calls).length := by
  induction calls using List.reverseRecOn with
  | nil => exact ⟨coherent_empty, by simp [run, empty, get?], Nat.le_refl 0⟩
  | append_singleton calls c ih =>
    rw [newIds_concat, List.nodup_append] at hfresh
    obtain ⟨hbefore, -, hapart⟩ := hfresh
    obtain ⟨hcoherent, hids, hcount⟩ := ih hbefore
    -- Whatever is filed came with an earlier call, so an identifier used once is not filed yet.
    have hnew : ∀ id, c.newId? = some id → (run calls).get? id = none := by
      intro id hid
      cases hget : (run calls).get? id with
      | none => rfl
      | some a => exact absurd rfl (hapart id (hids id a hget) id (by simp [hid]))
    rw [run_concat, newIds_concat]
    refine ⟨coherent_call hcoherent c hnew, ?_, ?_⟩
    · intro id a ha
      rw [List.mem_append]
      rcases get?_of_call ha with ⟨b, hb⟩ | hid
      · exact .inl (hids id b hb)
      · exact .inr (by simp [hid])
    · rw [List.length_append]
      have := lastSequence_call (run calls) c
      omega

/-- The ledger is in step under a key. -/
structure InStep (l : Ledger) (key : IdentityKey) : Prop where
  /-- Artefacts are filed under their own identifiers, each once. -/
  filed : (∀ id a, l.get? id = some a → a.id = id) ∧ (Table.keys l.artefacts).Nodup
  /-- At most one artefact of the key is current. -/
  single : ∀ {i j a b}, l.get? i = some a → l.get? j = some b → a.key = key → b.key = key →
    a.state = .current → b.state = .current → i = j
  /-- The index names the artefact of the key that is current, and nothing else. -/
  indexed : ∀ id, Table.get? key l.current = some id ↔
    ∃ a, l.get? id = some a ∧ a.key = key ∧ a.state = .current
  /-- The history lists the artefacts of the key, each once and in the order of the commits. -/
  listed : ∀ a, a ∈ l.history key ↔ l.get? a.id = some a ∧ a.key = key
  once : (l.history key).Nodup
  ordered : (l.history key).Pairwise (fun a b => a.sequence < b.sequence)
  /-- The commits of the whole ledger are numbered from 1. -/
  numbered : ((Table.values l.artefacts).map Artefact.sequence).Perm (List.range' 1 l.size)
  /-- The current artefact of the key is the last of its history. -/
  last : ∀ {id a}, l.get? id = some a → a.key = key → a.state = .current →
    (l.history key).getLast? = some a ∧ ∀ b ∈ l.history key, b.sequence ≤ a.sequence
  /-- Every artefact of the history made room for the next one. -/
  linked : (l.history key).IsChain Precedes

theorem Coherent.inStep {l : Ledger} (h : Coherent l) (key : IdentityKey) : InStep l key := by
  refine ⟨⟨fun id a => h.ids, h.once⟩, ?_, h.indexed key, h.mem_history key, ?_, h.ordered key,
    ?_, ?_, h.linked key⟩
  · intro i j a b ha hb hakey hbkey hastate hbstate
    have hi := (h.indexed key i).mpr ⟨a, ha, hakey, hastate⟩
    have hj := (h.indexed key j).mpr ⟨b, hb, hbkey, hbstate⟩
    exact Option.some.inj (hi.symm.trans hj)
  · refine (h.ordered key).imp ?_
    rintro a b hlt rfl
    exact Nat.lt_irrefl _ hlt
  · rw [h.numbered, h.size_eq]
  · rintro id a ha rfl hstate
    obtain rfl := h.ids ha
    obtain ⟨earlier, hlast⟩ := h.history_of_current ha hstate
    have hordered := h.ordered a.key
    rw [hlast, List.pairwise_append] at hordered
    refine ⟨by rw [hlast, List.getLast?_concat], ?_⟩
    intro b hb
    rw [hlast, List.mem_append, List.mem_singleton] at hb
    rcases hb with hb | rfl
    · exact Nat.le_of_lt (hordered.2.2 b hb a (List.mem_singleton_self a))
    · exact Nat.le_refl _

/-- After every run in which no identifier comes twice the ledger is in step under every key, and
its counter has counted no further than there were commits. -/
theorem every_run_leaves_the_ledger_in_step (calls : List Call) (hfresh : (newIds calls).Nodup) :
    (∀ key, InStep (run calls) key) ∧ (run calls).lastSequence = (run calls).size ∧
      (run calls).lastSequence ≤ (newIds calls).length := by
  obtain ⟨hcoherent, -, hcount⟩ := coherent_run calls hfresh
  exact ⟨hcoherent.inStep, hcoherent.size_eq.symm, hcount⟩

/-! A run with everything in it: a commit, its successor, an expiry, a commit that expects the
wrong artefact, one under another key, and a last one on the free key. -/

namespace Example

def envelope (location : String) : Envelope where
  provenance := "COMMON_PLATFORM"
  sourceId := some "id1"
  artefactType := .list
  sensitivity := .anyone
  language := .english
  displayFrom := .epoch
  displayTo := .epoch
  listType := ⟨"DAILY_LIST", ListType.isCanonical_daily⟩
  location
  contentDate := .epoch

def commit (n : Nat) (location : String) (supersedes : Option Nat) : Call :=
  .commit (.ofNat n) (envelope location) default .epoch (supersedes.map .ofNat) .epoch

def calls : List Call :=
  [commit 1 "123" none, commit 2 "123" (some 1), .expire (.ofNat 2) ⟨1, by decide⟩,
    commit 3 "123" (some 2), commit 4 "9" none, commit 5 "123" none]

end Example

theorem a_mixed_run_is_in_step :
    (newIds Example.calls).Nodup ∧ InStep (run Example.calls) (Example.envelope "123").key ∧
      ((run Example.calls).history (Example.envelope "123").key).map Artefact.state =
        [.superseded, .expired, .current] :=
  ⟨by decide, (every_run_leaves_the_ledger_in_step Example.calls (by decide)).1 _, by decide⟩

end Ledger

end CauseLists
