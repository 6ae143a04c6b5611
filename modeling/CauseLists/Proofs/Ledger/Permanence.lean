-- What stays in the ledger for good. A call puts at most one artefact at the end of one chain, and
-- at most one artefact that was there before changes: it leaves the current state. What has left
-- that state, and the order of the chains, is never touched again.
import CauseLists.Proofs.Ledger.Effects
import CauseLists.Proofs.Ledger.Runs

namespace CauseLists

namespace Ledger

variable {l l' : Ledger} {b : Artefact}

/-! ## Chains -/

/-- The history of a key goes by its chain. -/
theorem Filed.map_id_history (h : Filed l) (key : IdentityKey) :
    (l.history key).map Artefact.id = l.chain key := by
  have hfound : ∀ id ∈ l.chain key, (l.get? id).map Artefact.id = some id := by
    intro id hid
    obtain ⟨a, ha, -⟩ := (h.chained key id).mp hid
    rw [ha, Option.map_some, h.ids ha]
  rw [history_eq, List.map_filterMap, List.filterMap_congr hfound, List.filterMap_some]

/-- A commit makes the chain of its key longer by one, and no other chain. -/
theorem chain_commit {c : Commit} (hok : l.commit c = (.ok b, l')) (key : IdentityKey) :
    l'.chain key =
      if key = c.artefact.key then l.chain key ++ [c.artefact.id] else l.chain key := by
  obtain ⟨-, ⟨-, happend⟩ | ⟨id, prior, closed, -, -, -, happend⟩⟩ := commit_eq_ok hok
  all_goals
    obtain rfl := congrArg Prod.snd happend
    exact chain_append _ _ key

theorem chain_expire {id : ArtefactId} {now : Instant} (hok : l.expire id now = (.ok b, l'))
    (key : IdentityKey) : l'.chain key = l.chain key := by
  obtain ⟨a, -, -, rfl⟩ := expire_eq_ok hok
  rfl

/-! ## One call -/

/-- What the ledger keeps of what it held before. -/
structure Preserves (l l' : Ledger) : Prop where
  /-- Every artefact is still there as the same record, and has changed only if it has left the
  current state. -/
  records : ∀ {id a}, l.get? id = some a →
    ∃ b, l'.get? id = some b ∧ a.SameRecord b ∧ (b = a ∨ a.Leaves b)
  /-- What had left the current state before has not changed at all. -/
  closed : ∀ {id a}, l.get? id = some a → a.state ≠ .current → l'.get? id = some a
  /-- No two artefacts have changed. -/
  single : ∀ {i j a b}, l.get? i = some a → l.get? j = some b → l'.get? i ≠ some a →
    l'.get? j ≠ some b → i = j
  histories : ∀ key, (l.history key).map Artefact.id <+: (l'.history key).map Artefact.id

/-- A change preserves the ledger if it makes no artefact but one leave the current state, leaves
every other artefact alone and only adds to the chains. -/
theorem preserves_of_one (changed : Option ArtefactId) (h : Filed l) (h' : Filed l')
    (hother : ∀ {id a}, l.get? id = some a → changed ≠ some id → l'.get? id = some a)
    (hone : ∀ {id a}, l.get? id = some a → changed = some id →
      ∃ b, l'.get? id = some b ∧ a.Leaves b)
    (hchain : ∀ key, l.chain key <+: l'.chain key) : Preserves l l' := by
  have hchanged : ∀ {id a}, l.get? id = some a → l'.get? id ≠ some a → changed = some id := by
    intro id a ha hne
    by_contra hsame
    exact hne (hother ha hsame)
  refine ⟨?_, ?_, ?_, ?_⟩
  · intro id a ha
    by_cases hid : changed = some id
    · obtain ⟨b, hb, hleaves⟩ := hone ha hid
      exact ⟨b, hb, hleaves.record, .inr hleaves⟩
    · exact ⟨a, hother ha hid, .refl a, .inl rfl⟩
  · intro id a ha hclosed
    apply hother ha
    intro hid
    obtain ⟨b, -, hleaves⟩ := hone ha hid
    exact hclosed hleaves.was
  · intro i j a b ha hb hi hj
    exact Option.some.inj ((hchanged ha hi).symm.trans (hchanged hb hj))
  · intro key
    rw [h.map_id_history, h'.map_id_history]
    exact hchain key

theorem Coherent.preserves_commit (h : Coherent l) {c : Commit} (hok : l.commit c = (.ok b, l'))
    (hnew : l.get? c.artefact.id = none) (hafter : Coherent l') : Preserves l l' := by
  apply preserves_of_one c.supersedes h.toFiled hafter.toFiled
  · intro id a ha hid
    rw [get?_commit_of_ne hok (ne_of_new hnew ha) hid, ha]
  · intro id a ha hid
    obtain ⟨prior, closed, hprior, hsup, hclosed⟩ := get?_commit_prior hok hid (ne_of_new hnew ha)
    obtain rfl := Option.some.inj (ha.symm.trans hprior)
    exact ⟨closed, hclosed, hsup.leaves⟩
  · intro key
    rw [chain_commit hok]
    split
    · exact List.prefix_append _ _
    · exact List.prefix_rfl

theorem Coherent.preserves_expire (h : Coherent l) {id : ArtefactId} {now : Instant}
    (hok : l.expire id now = (.ok b, l')) : Preserves l l' := by
  apply preserves_of_one (some id) h.toFiled (coherent_expire h hok).toFiled
  · intro other a ha hother
    rw [get?_expire hok, if_neg (fun hsame => hother (congrArg some hsame.symm)), ha]
  · rintro other a ha ⟨⟩
    obtain ⟨old, hold, hexp, -⟩ := Ledger.expire_eq_ok hok
    obtain rfl := Option.some.inj (ha.symm.trans hold)
    exact ⟨b, by rw [get?_expire hok, if_pos rfl], hexp.leaves⟩
  · intro key
    exact (chain_expire hok key).symm ▸ List.prefix_rfl

/-- No call to a coherent ledger touches what it keeps. -/
theorem Coherent.preserves_call (h : Coherent l) (c : Call)
    (hnew : ∀ id, c.newId? = some id → l.get? id = none) : Preserves l (l.call c) := by
  rcases hanswer : c.answer l with ⟨e | b, l'⟩
  · rw [call_of_error hanswer]
    exact preserves_of_one none h.toFiled h.toFiled (fun ha _ => ha)
      (fun _ hid => by cases hid) (fun _ => List.prefix_rfl)
  · have hafter := coherent_call h c hnew
    rw [call_of_ok hanswer] at hafter ⊢
    cases c with
    | commit id envelope body receivedAt supersedes now =>
      exact h.preserves_commit hanswer (hnew id rfl) hafter
    | expire id now => exact h.preserves_expire hanswer

/-! ## Fresh calls -/

/-- No call brings an artefact along that is filed already when the call is made. -/
def Fresh : Ledger → List Call → Prop
  | _, [] => True
  | l, c :: rest => (∀ id ∈ c.newId?, l.get? id = none) ∧ Fresh (l.call c) rest

instance decidableFresh : (l : Ledger) → (calls : List Call) → Decidable (Fresh l calls)
  | _, [] => .isTrue trivial
  | l, c :: rest => @instDecidableAnd _ _ inferInstance (decidableFresh (l.call c) rest)

theorem fresh_append (l : Ledger) (calls more : List Call) :
    Fresh l (calls ++ more) ↔ Fresh l calls ∧ Fresh (calls.foldl call l) more := by
  induction calls generalizing l with
  | nil => simp [Fresh]
  | cons c rest ih => simp only [List.cons_append, Fresh, List.foldl_cons, ih, and_assoc]

/-- Fresh calls keep a ledger coherent, and with it whatever every one of them keeps. -/
theorem Coherent.keeps (h : Coherent l) (Kept : Ledger → Prop)
    (hstep : ∀ {l c}, Coherent l → (∀ id ∈ c.newId?, l.get? id = none) → Kept l → Kept (l.call c))
    {calls : List Call} (hfresh : Fresh l calls) (hkept : Kept l) :
    Coherent (calls.foldl call l) ∧ Kept (calls.foldl call l) := by
  induction calls generalizing l with
  | nil => exact ⟨h, hkept⟩
  | cons c rest ih =>
    obtain ⟨hnew, hrest⟩ := hfresh
    exact ih (coherent_call h c hnew) hrest (hstep h hnew hkept)

theorem coherent_of_fresh {calls : List Call} (hfresh : Fresh empty calls) : Coherent (run calls) :=
  (coherent_empty.keeps (fun _ => True) (fun _ _ _ => trivial) hfresh trivial).1

/-- What is filed stays filed. -/
theorem Coherent.stored (h : Coherent l) {calls : List Call} (hfresh : Fresh l calls)
    {id : ArtefactId} (hid : ∃ a, l.get? id = some a) :
    ∃ a, (calls.foldl call l).get? id = some a := by
  refine (h.keeps (fun l => ∃ a, l.get? id = some a) ?_ hfresh hid).2
  rintro l c h hnew ⟨a, ha⟩
  obtain ⟨b, hb, -⟩ := (h.preserves_call c hnew).records ha
  exact ⟨b, hb⟩

/-- History is never rewritten. In every state that a run leads to, whatever is called next and
whether or not it is carried out: every artefact stays the same record, what has left the current
state stays as it is, one artefact at most leaves it, and the chains only grow. A call that is
refused changes nothing. -/
theorem history_is_never_rewritten (calls : List Call) (c : Call)
    (hfresh : Fresh empty (calls ++ [c])) :
    Preserves (run calls) (run (calls ++ [c])) ∧
      ∀ e, (c.answer (run calls)).1 = .error e → run (calls ++ [c]) = run calls := by
  obtain ⟨hbefore, hnew, -⟩ := (fresh_append empty calls [c]).mp hfresh
  rw [run_concat]
  exact ⟨(coherent_of_fresh hbefore).preserves_call c hnew,
    fun e herror => call_of_error (Prod.ext herror rfl)⟩

/-! One more list for a key with some history behind it. Its identifier came once before, with a
commit that was refused. -/

namespace Example

def next : Call := commit 3 "123" (some 5)

end Example

theorem a_successor_leaves_the_history_before_it :
    Fresh empty (Example.calls ++ [Example.next]) ∧
      Preserves (run Example.calls) (run (Example.calls ++ [Example.next])) ∧
      ((run (Example.calls ++ [Example.next])).history (Example.envelope "123").key).map
        Artefact.state = [.superseded, .expired, .superseded, .current] :=
  ⟨by decide, (history_is_never_rewritten Example.calls Example.next (by decide)).1, by decide⟩

end Ledger

end CauseLists
