-- How the chain of a key grows. A commit puts its artefact at the end of the chain, with the next
-- number, and whatever stood there before stays the same record. An archive in which nobody holds a
-- lock commits every body that it keeps, and nobody holds a lock afterwards.
import CauseLists.Proofs.Ledger.Permanence
import CauseLists.Proofs.Supersession.Alone
import Mathlib.Data.List.Forall2

namespace CauseLists

namespace Ledger

/-! ## Chains -/

variable {l l' : Ledger} {key : IdentityKey}

theorem forall₂_filterMap {α β γ : Type} {R : β → γ → Prop} {f : α → Option β} {g : α → Option γ}
    {xs : List α} (h : ∀ x ∈ xs, ∃ b c, f x = some b ∧ g x = some c ∧ R b c) :
    List.Forall₂ R (xs.filterMap f) (xs.filterMap g) := by
  induction xs with
  | nil => exact .nil
  | cons x xs ih =>
    obtain ⟨⟨b, c, hf, hg, hR⟩, hrest⟩ := List.forall_mem_cons.mp h
    rw [List.filterMap_cons_some hf, List.filterMap_cons_some hg]
    exact .cons hR (ih hrest)

/-- A chain that got longer by one has the same records in it as before, and the new one last. -/
theorem Filed.history_longer (h : Filed l) {b : Artefact}
    (hrecords : ∀ {id a}, l.get? id = some a → ∃ a', l'.get? id = some a' ∧ a.SameRecord a')
    (hchain : l'.chain key = l.chain key ++ [b.id]) (hb : l'.get? b.id = some b) :
    ∃ older, l'.history key = older ++ [b] ∧
      List.Forall₂ Artefact.SameRecord (l.history key) older := by
  refine ⟨(l.chain key).filterMap l'.get?, ?_, ?_⟩
  · rw [history_eq, hchain, List.filterMap_append, List.filterMap_cons_some hb, List.filterMap_nil]
  · refine forall₂_filterMap ?_
    intro id hid
    obtain ⟨a, ha, -⟩ := (h.chained key id).mp hid
    obtain ⟨a', ha', hsame⟩ := hrecords ha
    exact ⟨a, a', ha, ha', hsame⟩

/-- A commit made the chain of its key longer by its artefact. -/
structure Grows (l : Ledger) (envelope : Envelope) (now : Instant) (b : Artefact) (l' : Ledger) :
    Prop where
  history : ∃ older, l'.history envelope.key = older ++ [b] ∧
    List.Forall₂ Artefact.SameRecord (l.history envelope.key) older
  sequence : b.sequence = l.lastSequence + 1
  count : l'.lastSequence = l.lastSequence + 1
  received : b.receivedAt = now

theorem Carried.grows {envelope : Envelope} {stored : StoredBody} {id : ArtefactId} {now : Instant}
    {existing : Option Artefact} {expired : Option ArtefactId} {between : Ledger} {b : Artefact}
    (h : Carried l envelope stored id now existing expired between b l') :
    l.Grows envelope now b l' := by
  obtain ⟨-, hcount⟩ := h.between_new
  obtain ⟨hid, -, -, hkept⟩ := commit_artefact h.commit
  have hbetween : between.chain envelope.key = l.chain envelope.key := by
    cases h.clears with
    | free _ => rfl
    | standing _ _ => rfl
    | ended _ _ hexpire => exact chain_expire hexpire _
  have hchain : l'.chain envelope.key = l.chain envelope.key ++ [b.id] := by
    refine ((chain_commit h.commit envelope.key).trans (if_pos rfl)).trans ?_
    rw [hbetween, hid]
  exact {
    history := h.coherent.toFiled.history_longer h.changesUnder.records hchain hkept
    sequence := by rw [commit_sequence h.commit, hcount]
    count := by rw [commit_lastSequence h.commit, hcount]
    received := by rw [commit_answer h.commit rfl]; rfl }

end Ledger

/-! ## Commits -/

variable {ε : Type}

/-- In an archive in which nobody holds a lock a body that is kept is committed, and nobody holds a
lock afterwards. -/
theorem Archive.Quiet.commits {a : Archive ε} (h : a.Quiet) (hids : a.ids.next.2.Distinct)
    {envelope : Envelope} {body : Bytes} {stored : StoredBody} {payloads : PayloadStore}
    (hkept : a.payloads.persist envelope body = (.ok stored, payloads)) (timeout : Nat)
    (now : Instant) :
    ∃ c b, Engine.commit ⟨.direct, timeout⟩ a envelope body now = (.ok c, b) ∧ b.Quiet ∧
      b.ids = a.ids.next.2 ∧ b.payloads = payloads ∧
      a.ledger.Takes envelope body now c b.ledger ∧
      a.ledger.Grows envelope now c.artefact b.ledger := by
  obtain ⟨existing, expired, l, hclear⟩ := h.ledger.clears envelope.key now
  obtain ⟨hcoherent, hindex⟩ := hclear.coherent h.ledger
  obtain ⟨artefact, l', hcommit⟩ :=
    Ledger.commit_of_indexed (c := a.request envelope stored existing now) hcoherent hindex
  have hnew := h.toCoherent.fresh hids hclear
  have hlocked : ∀ held, Engine.commitLocked ⟨.direct, timeout⟩ { a with locks := held } envelope
      body now = (.ok ⟨artefact, resolve envelope existing now, expired⟩,
        { a with locks := held, payloads, ids := a.ids.next.2, ledger := l' }) := by
    intro held
    have hpersist : (Stores.direct (ε := ε)).persist { a with locks := held, ledger := l } envelope
        body = (.ok stored, { a with locks := held, ledger := l, payloads }) := by
      simp [Stores.direct, Archive.persist, hkept]
    exact commitLocked_of_kept (e := ⟨.direct, timeout⟩) (a := { a with locks := held }) rfl hclear
      hpersist hcommit
  obtain ⟨locks, hrun, hfree⟩ := Engine.commit_of_quiet h.free
    { a with payloads, ids := a.ids.next.2, ledger := l' } hlocked
  obtain ⟨hdigest, hsize⟩ := PayloadStore.persist_stored hkept
  have hcarried : Ledger.Carried a.ledger envelope stored a.ids.next.1 now existing expired l
      artefact l' := ⟨h.ledger, h.toCoherent.next_isNew hids, hclear, hcommit⟩
  refine ⟨_, _, hrun, ⟨⟨?_, ?_⟩, hfree⟩, rfl, rfl, hcarried.takes hdigest hsize, hcarried.grows⟩
  · exact Ledger.coherent_commit hcoherent hcommit hnew rfl rfl rfl
  · intro id x hx
    exact h.toCoherent.drawn_of_commit hclear rfl hcommit hx

end CauseLists
