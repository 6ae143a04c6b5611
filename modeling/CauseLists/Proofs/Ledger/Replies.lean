-- What the ledger replies to its calls, and what the replies tell. A commit is carried out exactly
-- if it names what is current; from the replies one can tell what is current still and how long
-- the chains are; and no artefact gets a second successor.
import CauseLists.Proofs.Ledger.Permanence

namespace CauseLists

/-! ## Replies -/

/-- A call to the ledger with its answer. -/
structure Reply where
  call : Ledger.Call
  answer : Except LedgerError Artefact

namespace Reply

/-- What a ledger replies to a call. -/
def of (l : Ledger) (c : Ledger.Call) : Reply := ⟨c, (c.answer l).1⟩

/-- The call was carried out and changed something under a key. -/
def changes (key : IdentityKey) (r : Reply) : Bool :=
  r.answer.toOption.any (fun a => a.key = key)

/-- The call committed an artefact under a key. -/
def commits (key : IdentityKey) (r : Reply) : Bool := r.call.newId?.isSome && r.changes key

theorem changes_of_error {l l' : Ledger} {c : Ledger.Call} {e : LedgerError}
    (h : c.answer l = (.error e, l')) (key : IdentityKey) : (of l c).changes key = false := by
  rw [of, h]
  rfl

theorem changes_of_ok {l l' : Ledger} {c : Ledger.Call} {a : Artefact}
    (h : c.answer l = (.ok a, l')) (key : IdentityKey) :
    (of l c).changes key = decide (a.key = key) := by
  rw [of, h]
  rfl

end Reply

namespace Ledger

variable {l l' : Ledger}

/-- The identifier of the artefact that is current under a key. -/
def currentId (l : Ledger) (key : IdentityKey) : Option ArtefactId :=
  (l.currentFor key).map Artefact.id

theorem Coherent.currentId_eq (h : Coherent l) (key : IdentityKey) :
    l.currentId key = Table.get? key l.current := by
  unfold currentId currentFor
  cases hindex : Table.get? key l.current with
  | none => rfl
  | some id =>
    obtain ⟨a, ha, -⟩ := (h.indexed key id).mp hindex
    rw [Option.bind_some, ha, Option.map_some, h.ids ha]

/-- After a call an artefact that the call did not bring is current under a key exactly if it was
so before and the call has changed nothing under the key. -/
theorem Coherent.current_call (h : Coherent l) {c : Call} {id : ArtefactId}
    (hold : c.newId? ≠ some id) (key : IdentityKey) :
    Table.get? key (l.call c).current = some id ↔
      Table.get? key l.current = some id ∧ (Reply.of l c).changes key = false := by
  rcases hanswer : c.answer l with ⟨e | b, l'⟩
  · simp [call_of_error hanswer, Reply.changes_of_error hanswer]
  · rw [call_of_ok hanswer, Reply.changes_of_ok hanswer, decide_eq_false_iff_not]
    cases c with
    | commit new envelope body receivedAt supersedes now =>
      have hkey : b.key = envelope.key := congrArg Envelope.key (commit_artefact hanswer).2.1
      rw [current_commit hanswer, hkey]
      split
      · -- The new artefact is current now.
        rename_i hsame
        exact iff_of_false hold (fun hboth => hboth.2 hsame.symm)
      · rename_i hother
        exact (and_iff_left (Ne.symm hother)).symm
    | expire other now =>
      obtain ⟨a, rfl, -, hexp, rfl⟩ := h.expire_eq_ok hanswer
      show Table.get? key (Table.erase a.key l.current) = some id ↔ _
      rw [Table.get?_erase, hexp.record.key]
      split
      · rename_i hsame
        exact iff_of_false (by simp) (fun hboth => hboth.2 hsame.symm)
      · rename_i hother
        exact (and_iff_left (Ne.symm hother)).symm

/-- A call makes the history of a key longer by one exactly if it commits an artefact under it. -/
theorem length_chain_call (l : Ledger) (c : Call) (key : IdentityKey) :
    ((l.call c).chain key).length =
      (l.chain key).length + if (Reply.of l c).commits key then 1 else 0 := by
  rcases hanswer : c.answer l with ⟨e | b, l'⟩
  · simp [call_of_error hanswer, Reply.commits, Reply.changes_of_error hanswer]
  · rw [call_of_ok hanswer, Reply.commits, Reply.changes_of_ok hanswer]
    cases c with
    | commit new envelope body receivedAt supersedes now =>
      have hkey : b.key = envelope.key := congrArg Envelope.key (commit_artefact hanswer).2.1
      rw [chain_commit hanswer, hkey]
      by_cases hsame : key = envelope.key
      · subst hsame
        simp [Reply.of, Call.newId?, Artefact.key, Artefact.new]
      · simp [Reply.of, Call.newId?, Artefact.key, Artefact.new, hsame, Ne.symm hsame]
    | expire other now =>
      rw [chain_expire hanswer]
      simp [Reply.of, Call.newId?]

/-- Every link to a predecessor is answered by the link of the predecessor to its successor. -/
def Backed (l : Ledger) : Prop :=
  ∀ id a prior, l.get? id = some a → a.supersedes = some prior →
    ∃ b, l.get? prior = some b ∧ b.supersededBy = some id

theorem backed_commit (h : Coherent l) (hback : Backed l) {c : Commit} {b : Artefact}
    (hok : l.commit c = (.ok b, l')) (hnew : l.get? c.artefact.id = none)
    (hfirst : c.artefact.supersedes = none) : Backed l' := by
  intro id a prior ha hprior
  rcases record_of_commit hok ha with ⟨rfl, rfl⟩ | ⟨d, hd, hsame⟩
  · rw [commit_supersedes hok hfirst] at hprior
    obtain ⟨d, hd, -⟩ := (h.indexed c.artefact.key prior).mp ((commit_eq_ok hok).1.trans hprior)
    obtain ⟨old, closed, -, hsup, hclosed⟩ := get?_commit_prior hok hprior (ne_of_new hnew hd)
    exact ⟨closed, hclosed, hsup.supersededBy⟩
  · obtain ⟨q, hq, hlink⟩ := hback id d prior hd (hsame.supersedes.symm.trans hprior)
    refine ⟨q, ?_, hlink⟩
    rw [get?_commit_of_ne hok (ne_of_new hnew hq), hq]
    -- What the commit replaces was current, so nothing had replaced it before.
    intro hreplaced
    obtain ⟨q', hq', -, hstate⟩ :=
      (h.indexed c.artefact.key prior).mp ((commit_eq_ok hok).1.trans hreplaced)
    obtain rfl := Option.some.inj (hq.symm.trans hq')
    rw [h.unlinked hq (by simp [hstate])] at hlink
    cases hlink

theorem backed_expire (hback : Backed l) {id : ArtefactId} {now : Instant} {b : Artefact}
    (hok : l.expire id now = (.ok b, l')) : Backed l' := by
  intro other a prior ha hprior
  obtain ⟨d, hd, hsame⟩ := record_of_expire hok ha
  obtain ⟨q, hq, hlink⟩ := hback other d prior hd (hsame.supersedes.symm.trans hprior)
  obtain ⟨old, hold, hexp, -⟩ := expire_eq_ok hok
  rw [get?_expire hok]
  split
  · rename_i hexpired
    obtain rfl := Option.some.inj (hq.symm.trans (hexpired ▸ hold))
    exact ⟨b, rfl, hexp.supersededBy.trans hlink⟩
  · exact ⟨q, hq, hlink⟩

theorem backed_call (h : Coherent l) (hback : Backed l) (c : Call)
    (hnew : ∀ id ∈ c.newId?, l.get? id = none) : Backed (l.call c) := by
  rcases hanswer : c.answer l with ⟨e | b, l'⟩
  · exact (call_of_error hanswer).symm ▸ hback
  · rw [call_of_ok hanswer]
    cases c with
    | commit id envelope body receivedAt supersedes now =>
      exact backed_commit h hback hanswer (hnew id rfl) rfl
    | expire id now => exact backed_expire hback hanswer

/-- Fresh calls leave every link to a predecessor answered. -/
theorem backed_of_fresh {calls : List Call} (hfresh : Fresh empty calls) : Backed (run calls) := by
  have hnone : Backed empty := by
    intro id a prior ha
    cases ha
  exact (coherent_empty.keeps Backed (fun h hnew hback => backed_call h hback _ hnew) hfresh
    hnone).2

/-- An artefact has one successor at most. -/
theorem Backed.single (hback : Backed l) {i j prior : ArtefactId} {a b : Artefact}
    (ha : l.get? i = some a) (hb : l.get? j = some b) (hprior : a.supersedes = some prior)
    (hprior' : b.supersedes = some prior) : i = j := by
  obtain ⟨p, hp, hlink⟩ := hback i a prior ha hprior
  obtain ⟨p', hp', hlink'⟩ := hback j b prior hb hprior'
  obtain rfl := Option.some.inj (hp.symm.trans hp')
  exact Option.some.inj (hlink.symm.trans hlink')

/-- A commit is carried out exactly if what it is to replace is current. -/
theorem Coherent.commit_ok_iff (h : Coherent l) (c : Commit) :
    (∃ a l', l.commit c = (.ok a, l')) ↔ l.currentId c.artefact.key = c.supersedes := by
  rw [h.currentId_eq]
  constructor
  · rintro ⟨a, l', hok⟩
    exact (commit_eq_ok hok).1
  · exact commit_of_indexed h

/-- A commit that is refused is told what is current. -/
theorem Coherent.commit_error (h : Coherent l) {c : Commit} {e : LedgerError}
    (herror : (l.commit c).1 = .error e) :
    e = .notCurrent c.artefact.key c.supersedes (l.currentId c.artefact.key) := by
  have hother : l.currentId c.artefact.key ≠ c.supersedes := by
    intro hsame
    obtain ⟨a, l', hok⟩ := (h.commit_ok_iff c).mpr hsame
    rw [hok] at herror
    cases herror
  rw [h.currentId_eq] at hother ⊢
  rw [commit, if_pos hother] at herror
  exact (Except.error.inj herror).symm

/-! ## Replies to many calls -/

/-- The replies to some calls, one after another. -/
def replies : Ledger → List Call → List Reply
  | _, [] => []
  | l, c :: rest => .of l c :: replies (l.call c) rest

/-- An artefact that is filed is current after some calls exactly if it was so before and they have
changed nothing under the key: no artefact becomes current a second time. -/
theorem Coherent.current_calls (h : Coherent l) {calls : List Call} (hfresh : Fresh l calls)
    {id : ArtefactId} (hid : ∃ a, l.get? id = some a) (key : IdentityKey) :
    Table.get? key (calls.foldl call l).current = some id ↔
      Table.get? key l.current = some id ∧ ∀ r ∈ replies l calls, r.changes key = false := by
  induction calls generalizing l with
  | nil => simp [replies]
  | cons c rest ih =>
    have hnew : c.newId? ≠ some id := by
      intro hsome
      obtain ⟨a, ha⟩ := hid
      exact ne_of_new (hfresh.1 id hsome) ha rfl
    have hone : Fresh l [c] := ⟨hfresh.1, trivial⟩
    rw [List.foldl_cons, ih (coherent_call h c hfresh.1) hfresh.2 (h.stored hone hid),
      h.current_call hnew, replies, List.forall_mem_cons, and_assoc]

/-- The chain of a key gets longer by the number of commits that are carried out under it. -/
theorem length_chain_calls (l : Ledger) (calls : List Call) (key : IdentityKey) :
    ((calls.foldl call l).chain key).length =
      (l.chain key).length + (replies l calls).countP (Reply.commits key) := by
  induction calls generalizing l with
  | nil => rfl
  | cons c rest ih =>
    rw [List.foldl_cons, ih, length_chain_call, replies, List.countP_cons]
    omega

end Ledger

end CauseLists
