-- Commits and expiries step by step: when each is carried out, what it leaves behind, and that a
-- coherent ledger stays coherent.
import CauseLists.Proofs.Ledger.Changes

namespace CauseLists

namespace Ledger

/-! ## Expiring -/

/-- What an expiry does, if it is carried out. -/
theorem expire_eq_ok {l l' : Ledger} {id : ArtefactId} {now : Instant} {b : Artefact}
    (hok : l.expire id now = (.ok b, l')) :
    ∃ a, l.get? id = some a ∧ a.Expired now b ∧ l' = { l.refile id b with
      current := if Table.get? b.key l.current = some id then Table.erase b.key l.current
        else l.current } := by
  unfold expire at hok
  split at hok
  · cases hok
  · rename_i a ha
    split at hok
    · cases hok
    · rename_i b' hb
      obtain ⟨⟨rfl⟩, rfl⟩ := Prod.mk.inj hok
      exact ⟨a, ha, Artefact.expire_spec hb, rfl⟩

/-- An expiry that is refused changes nothing. -/
theorem expire_of_error {l l' : Ledger} {id : ArtefactId} {now : Instant} {e : LedgerError}
    (h : l.expire id now = (.error e, l')) : l' = l := by
  unfold expire at h
  split at h
  · exact (Prod.mk.inj h).2.symm
  · rename_i a ha
    split at h
    · rename_i e' b hb
      obtain rfl := (Prod.mk.inj h).2
      rw [Artefact.expire_of_error hb, refile_self ha]
    · cases h

/-- An expiry brings in no artefact. -/
theorem record_of_expire {l l' : Ledger} {id other : ArtefactId} {now : Instant} {a b : Artefact}
    (hok : l.expire id now = (.ok b, l')) (ha : l'.get? other = some a) :
    ∃ c, l.get? other = some c ∧ c.SameRecord a := by
  obtain ⟨old, hold, hexp, rfl⟩ := expire_eq_ok hok
  exact record_of_refile hold hexp.record ha

/-- In a coherent ledger an expiry frees the key of the artefact. -/
theorem Coherent.expire_eq_ok {l l' : Ledger} (h : Coherent l) {id : ArtefactId} {now : Instant}
    {b : Artefact} (hok : l.expire id now = (.ok b, l')) :
    ∃ a, a.id = id ∧ l.get? a.id = some a ∧ a.Expired now b ∧
      l' = { l.refile a.id b with current := Table.erase a.key l.current } := by
  obtain ⟨a, ha, hexp, rfl⟩ := Ledger.expire_eq_ok hok
  obtain rfl : a.id = id := h.ids ha
  have hindex : Table.get? b.key l.current = some a.id :=
    (h.indexed b.key a.id).mpr ⟨a, ha, hexp.record.key.symm, hexp.was⟩
  refine ⟨a, rfl, ha, hexp, ?_⟩
  rw [if_pos hindex, hexp.record.key]

/-- An expiry is seen in the ledger. -/
theorem Coherent.expire_ne {l l' : Ledger} (h : Coherent l) {id : ArtefactId} {now : Instant}
    {b : Artefact} (hok : l.expire id now = (.ok b, l')) : l' ≠ l := by
  obtain ⟨a, rfl, ha, hexp, rfl⟩ := h.expire_eq_ok hok
  intro hsame
  have hb : l.get? a.id = some b := by
    have hfiled := get?_refile l a.id a.id b
    rw [if_pos rfl] at hfiled
    rwa [← hsame]
  rw [ha] at hb
  have hstate := hexp.state
  rw [← Option.some.inj hb, hexp.was] at hstate
  cases hstate

theorem expire_of_current {l : Ledger} {id : ArtefactId} {a : Artefact} {now : Instant}
    (ha : l.get? id = some a) (hstate : a.state = .current) (hended : a.hasEnded now = true) :
    ∃ b l', l.expire id now = (.ok b, l') := by
  obtain ⟨b, hb⟩ := Artefact.expire_of_current hstate hended
  simp [expire, ha, hb]

/-- The last artefact of a chain may be filed anew: its predecessor only knows it by its
identifier and by what it superseded. -/
theorem isChain_replace_last {earlier : List Artefact} {old new : Artefact}
    (h : (earlier ++ [old]).IsChain Precedes) (hsame : old.SameRecord new) :
    (earlier ++ [new]).IsChain Precedes := by
  rw [List.isChain_append] at h ⊢
  refine ⟨h.1, List.isChain_singleton new, ?_⟩
  intro a ha b hb
  obtain rfl : new = b := by simpa using hb
  have hold := h.2.2 a ha old (by simp)
  unfold Precedes at hold ⊢
  rw [hsame.id, hsame.supersedes]
  exact hold

/-- With the index entry of an artefact that has left the current state gone, the index is right
again. -/
theorem indexed_erase {l : Ledger} (h : Coherent l) {old new : Artefact}
    (hold : l.get? old.id = some old) (hwas : old.state = .current)
    (hstate : new.state ≠ .current) (key : IdentityKey) (id : ArtefactId) :
    Table.get? key (Table.erase old.key l.current) = some id ↔
      ∃ a, (l.refile old.id new).get? id = some a ∧ a.key = key ∧ a.state = .current := by
  have hindex := (h.indexed old.key old.id).mpr ⟨old, hold, rfl, hwas⟩
  rw [Table.get?_erase, get?_refile]
  by_cases hid : id = old.id
  · -- The artefact itself: it is current no longer, and no other key points to it.
    have hnot : ¬ (if key = old.key then none else Table.get? key l.current) = some old.id := by
      split
      · simp
      · rename_i hne
        intro hkey
        obtain ⟨a, ha, hakey, -⟩ := (h.indexed key old.id).mp hkey
        rw [hold] at ha
        exact hne (Option.some.inj ha ▸ hakey.symm)
    rw [hid, iff_false_left hnot]
    rintro ⟨a, ha, -, hcurrent⟩
    rw [if_pos rfl] at ha
    exact hstate (Option.some.inj ha ▸ hcurrent)
  · rw [if_neg hid, ← h.indexed key id]
    split
    · rename_i hkey
      rw [hkey, hindex]
      simp [Ne.symm hid]
    · rfl

/-- A key whose artefact has expired is free, and the artefact stays where it was. -/
theorem coherent_expire {l l' : Ledger} (h : Coherent l) {id : ArtefactId} {now : Instant}
    {b : Artefact} (hok : l.expire id now = (.ok b, l')) : Coherent l' := by
  obtain ⟨a, rfl, ha, hexp, rfl⟩ := h.expire_eq_ok hok
  have hfiled := h.toFiled.refile ha hexp.record
  obtain ⟨earlier, hlast⟩ := h.history_of_current ha hexp.was
  have hclosed : (l.refile a.id b).history a.key = earlier ++ [b] :=
    history_refile_last h.toFiled ha hlast
  have hother : ∀ {key}, key ≠ a.key → (l.refile a.id b).history key = l.history key :=
    history_refile_of_ne h.toFiled ha
  refine ⟨⟨hfiled.ids, hfiled.once, hfiled.numbered, hfiled.chained, hfiled.ordered⟩,
    ?_, ?_, ?_, ?_⟩
  · exact indexed_erase h ha hexp.was (by simp [hexp.state])
  · intro key
    show ((l.refile a.id b).history key).IsChain Precedes
    by_cases hkey : key = a.key
    · rw [hkey, hclosed]
      exact isChain_replace_last (hlast ▸ h.linked a.key) hexp.record
    · rw [hother hkey]
      exact h.linked key
  · intro key c hc
    change ((l.refile a.id b).history key).getLast? = some c at hc
    by_cases hkey : key = a.key
    · rw [hkey, hclosed, List.getLast?_concat] at hc
      rw [← Option.some.inj hc, hexp.state]
      simp
    · exact h.tip key c (hother hkey ▸ hc)
  · intro id c hc hopen
    change (l.refile a.id b).get? id = some c at hc
    rw [get?_refile] at hc
    split at hc
    · rw [← Option.some.inj hc, hexp.supersededBy]
      exact h.unlinked ha (by simp [hexp.was])
    · exact h.unlinked hc hopen

/-! ## Committing -/

/-- What becomes of the artefact that a commit is to replace, if it can be superseded. -/
theorem supersedePrior_eq_ok {l l' : Ledger} {c : Commit} {id : ArtefactId}
    (hok : l.supersedePrior c id = (.ok (), l')) : ∃ prior closed, l.get? id = some prior ∧
      prior.Superseded c.artefact.id c.now closed ∧ l' = l.refile id closed := by
  unfold supersedePrior at hok
  split at hok
  · cases hok
  · rename_i prior hprior
    rcases hsup : prior.supersede c.artefact.id c.now with ⟨e | ⟨⟩, closed⟩
    · rw [hsup] at hok
      cases hok
    · rw [hsup] at hok
      exact ⟨prior, closed, hprior, Artefact.supersede_spec hsup, (Prod.mk.inj hok).2.symm⟩

theorem supersedePrior_of_error {l l' : Ledger} {c : Commit} {id : ArtefactId} {e : LedgerError}
    (h : l.supersedePrior c id = (.error e, l')) : l' = l := by
  unfold supersedePrior at h
  split at h
  · exact (Prod.mk.inj h).2.symm
  · rename_i prior hprior
    rcases hsup : prior.supersede c.artefact.id c.now with ⟨e | ⟨⟩, closed⟩
    · rw [hsup] at h
      obtain rfl := (Prod.mk.inj h).2
      rw [Artefact.supersede_of_error hsup, refile_self hprior]
    · rw [hsup] at h
      cases h

/-- What a commit does, if it is carried out: the key was free, or its current artefact was the
one to be replaced. -/
theorem commit_eq_ok {l l' : Ledger} {c : Commit} {b : Artefact}
    (hok : l.commit c = (.ok b, l')) :
    Table.get? c.artefact.key l.current = c.supersedes ∧
    ((c.supersedes = none ∧ l.append c.artefact = (b, l')) ∨
      ∃ id prior closed, c.supersedes = some id ∧ l.get? id = some prior ∧
        prior.Superseded c.artefact.id c.now closed ∧
        (l.refile id closed).append { c.artefact with supersedes := some id } = (b, l')) := by
  unfold commit at hok
  simp only [ne_eq, ite_not] at hok
  split at hok
  · rename_i hindex
    refine ⟨hindex, ?_⟩
    split at hok
    · obtain ⟨⟨rfl⟩, rfl⟩ := Prod.mk.inj hok
      exact .inl ⟨‹_›, rfl⟩
    · rename_i id hsome
      split at hok
      · cases hok
      · rename_i closing hsupersede
        obtain ⟨⟨rfl⟩, rfl⟩ := Prod.mk.inj hok
        obtain ⟨prior, closed, hprior, hsup, rfl⟩ := supersedePrior_eq_ok hsupersede
        exact .inr ⟨id, prior, closed, hsome, hprior, hsup, rfl⟩
  · cases hok

/-- A commit that is refused changes nothing. -/
theorem commit_of_error {l l' : Ledger} {c : Commit} {e : LedgerError}
    (h : l.commit c = (.error e, l')) : l' = l := by
  unfold commit at h
  dsimp only at h
  split at h
  · exact (Prod.mk.inj h).2.symm
  · split at h
    · cases h
    · split at h
      · rename_i hsupersede
        obtain rfl := (Prod.mk.inj h).2
        exact supersedePrior_of_error hsupersede
      · cases h

/-- A commit brings in the new artefact and nothing else. -/
theorem record_of_commit {l l' : Ledger} {c : Commit} {a b : Artefact} {id : ArtefactId}
    (hok : l.commit c = (.ok b, l')) (ha : l'.get? id = some a) :
    (id = c.artefact.id ∧ a = b) ∨ ∃ d, l.get? id = some d ∧ d.SameRecord a := by
  obtain ⟨-, ⟨-, happend⟩ | ⟨prior, old, closed, -, hold, hsup, happend⟩⟩ := commit_eq_ok hok
  all_goals
    obtain rfl := congrArg Prod.fst happend
    obtain rfl := congrArg Prod.snd happend
    rw [get?_append] at ha
    split at ha
  · exact .inl ⟨‹_›, (Option.some.inj ha).symm⟩
  · exact .inr ⟨a, ha, .refl a⟩
  · exact .inl ⟨‹_›, (Option.some.inj ha).symm⟩
  · exact .inr (record_of_refile hold hsup.record ha)

/-- The artefact of a commit is the one that was handed in. -/
theorem commit_artefact {l l' : Ledger} {c : Commit} {b : Artefact}
    (hok : l.commit c = (.ok b, l')) : b.id = c.artefact.id ∧
      b.envelope = c.artefact.envelope ∧ b.body = c.artefact.body ∧ l'.get? b.id = some b := by
  obtain ⟨-, ⟨-, happend⟩ | ⟨prior, old, closed, -, -, -, happend⟩⟩ := commit_eq_ok hok
  all_goals
    obtain rfl := congrArg Prod.fst happend
    obtain rfl := congrArg Prod.snd happend
    refine ⟨rfl, rfl, rfl, ?_⟩
    rw [get?_append]
    exact if_pos rfl

theorem commit_lastSequence {l l' : Ledger} {c : Commit} {b : Artefact}
    (hok : l.commit c = (.ok b, l')) : l'.lastSequence = l.lastSequence + 1 := by
  obtain ⟨-, ⟨-, happend⟩ | ⟨prior, old, closed, -, -, -, happend⟩⟩ := commit_eq_ok hok
  all_goals
    obtain rfl := congrArg Prod.snd happend
    rfl

/-- A commit that names what is current under its key is carried out. -/
theorem commit_of_indexed {l : Ledger} (h : Coherent l) {c : Commit}
    (hindex : Table.get? c.artefact.key l.current = c.supersedes) :
    ∃ b l', l.commit c = (.ok b, l') := by
  cases hsome : c.supersedes with
  | none =>
    refine ⟨(l.append c.artefact).1, (l.append c.artefact).2, ?_⟩
    simp [commit, hindex, hsome]
  | some priorId =>
    obtain ⟨prior, hprior, -, hstate⟩ :=
      (h.indexed c.artefact.key priorId).mp (hindex.trans hsome)
    obtain ⟨closed, hclosed⟩ := Artefact.supersede_of_current hstate c.artefact.id c.now
    have hsup : l.supersedePrior c priorId = (.ok (), l.refile priorId closed) := by
      simp [supersedePrior, hprior, hclosed, Except.mapError]
    simp [commit, hindex, hsome, hsup]

/-- A ledger that is coherent but for one key, under which nothing is current and whose chain
waits for the next artefact. -/
structure Awaiting (l : Ledger) (next : Artefact) : Prop extends Filed l where
  indexed : ∀ key id, key ≠ next.key → (Table.get? key l.current = some id ↔
    ∃ a, l.get? id = some a ∧ a.key = key ∧ a.state = .current)
  free : ∀ {id a}, l.get? id = some a → a.key = next.key → a.state ≠ .current
  linked : ∀ key, (l.history key).IsChain Precedes
  ready : ∀ a, (l.history next.key).getLast? = some a → Precedes a next
  tip : ∀ key a, key ≠ next.key → (l.history key).getLast? = some a → a.state ≠ .superseded
  unlinked : ∀ {id a}, l.get? id = some a → a.state ≠ .superseded → a.supersededBy = none

theorem Coherent.awaiting {l : Ledger} (h : Coherent l) {next : Artefact}
    (hfree : Table.get? next.key l.current = none) (hnext : next.supersedes = none) :
    Awaiting l next where
  toFiled := h.toFiled
  indexed := fun key id _ => h.indexed key id
  free := by
    intro id a ha hkey hstate
    have hindex := (h.indexed next.key id).mpr ⟨a, ha, hkey, hstate⟩
    rw [hfree] at hindex
    cases hindex
  linked := h.linked
  ready := fun a ha => .inr ⟨(h.last_of_no_current hfree ha).1, (h.last_of_no_current hfree ha).2,
    hnext⟩
  tip := fun key a _ => h.tip key a
  unlinked := h.unlinked

/-- Superseding the current artefact of a key makes room for its successor. -/
theorem Coherent.awaiting_superseded {l : Ledger} (h : Coherent l) {prior closed next : Artefact}
    {now : Instant} (hprior : l.get? prior.id = some prior) (hkey : prior.key = next.key)
    (hsup : prior.Superseded next.id now closed) :
    Awaiting (l.refile prior.id closed) { next with supersedes := some prior.id } := by
  obtain ⟨earlier, hlast⟩ := h.history_of_current hprior hsup.was
  have hclosed : (l.refile prior.id closed).history next.key = earlier ++ [closed] :=
    hkey ▸ history_refile_last h.toFiled hprior hlast
  have hother : ∀ {key}, key ≠ next.key → (l.refile prior.id closed).history key = l.history key :=
    fun hne => history_refile_of_ne h.toFiled hprior (hkey ▸ hne)
  have hget : ∀ {id a}, (l.refile prior.id closed).get? id = some a →
      a = closed ∨ l.get? id = some a ∧ id ≠ prior.id := by
    intro id a ha
    rw [get?_refile] at ha
    split at ha
    · exact .inl (Option.some.inj ha).symm
    · exact .inr ⟨ha, ‹_›⟩
  -- The index still names the artefact that was closed: `indexed` leaves its key out.
  refine ⟨h.toFiled.refile hprior hsup.record, ?_, ?_, ?_, ?_, ?_, ?_⟩
  · intro key id hne
    change key ≠ next.key at hne
    show Table.get? key l.current = some id ↔ _
    rw [h.indexed key id, get?_refile]
    by_cases hid : id = prior.id
    · rw [hid, hprior, if_pos rfl]
      simp [hsup.record.key, hkey, Ne.symm hne]
    · rw [if_neg hid]
  · intro id a ha hakey hstate
    rcases hget ha with rfl | ⟨ha, hid⟩
    · rw [hsup.state] at hstate
      cases hstate
    · have hindex := (h.indexed next.key id).mpr ⟨a, ha, hakey, hstate⟩
      rw [(h.indexed next.key prior.id).mpr ⟨prior, hprior, hkey, hsup.was⟩] at hindex
      exact hid (Option.some.inj hindex).symm
  · intro key
    by_cases hne : key = next.key
    · rw [hne, hclosed]
      exact isChain_replace_last (hlast ▸ h.linked prior.key) hsup.record
    · rw [hother hne]
      exact h.linked key
  · intro a ha
    change ((l.refile prior.id closed).history next.key).getLast? = some a at ha
    rw [hclosed, List.getLast?_concat] at ha
    obtain rfl := Option.some.inj ha
    exact .inl ⟨hsup.state, hsup.supersededBy, congrArg some hsup.record.id.symm⟩
  · intro key a hne ha
    exact h.tip key a (hother hne ▸ ha)
  · intro id a ha hopen
    rcases hget ha with rfl | ⟨ha, -⟩
    · exact absurd hsup.state hopen
    · exact h.unlinked ha hopen

/-- The artefact that a chain waits for makes the ledger coherent again. -/
theorem Awaiting.append {l : Ledger} {next : Artefact} (h : Awaiting l next)
    (hnew : l.get? next.id = none) (hstate : next.state = .current)
    (hopen : next.supersededBy = none) : Coherent (l.append next).2 := by
  have hhistory := history_append h.toFiled hnew
  have hnext : (l.append next).1.state = .current := hstate
  refine ⟨h.toFiled.append hnew, ?_, ?_, ?_, ?_⟩
  · intro key id
    rw [current_append, get?_append]
    by_cases hkey : key = next.key
    · rw [if_pos hkey]
      constructor
      · intro hid
        rw [← Option.some.inj hid, if_pos rfl]
        exact ⟨_, rfl, hkey ▸ rfl, hnext⟩
      · rintro ⟨a, ha, hakey, hcurrent⟩
        split at ha
        · rename_i hid
          rw [hid]
        · exact absurd hcurrent (h.free ha (hkey ▸ hakey))
    · rw [if_neg hkey, h.indexed key id hkey]
      by_cases hid : id = next.id
      · rw [hid, hnew, if_pos rfl]
        have hother : (l.append next).1.key ≠ key := Ne.symm hkey
        simp [hother]
      · rw [if_neg hid]
  · intro key
    rw [hhistory]
    split
    · rename_i hkey
      rw [List.isChain_append]
      refine ⟨h.linked key, List.isChain_singleton _, ?_⟩
      intro a ha b hb
      obtain rfl : (l.append next).1 = b := by simpa using hb
      exact h.ready a (hkey ▸ ha)
    · exact h.linked key
  · intro key a ha
    rw [hhistory] at ha
    split at ha
    · rw [List.getLast?_concat] at ha
      rw [← Option.some.inj ha, hnext]
      simp
    · exact h.tip key a ‹_› ha
  · intro id a ha hstay
    rw [get?_append] at ha
    split at ha
    · rw [← Option.some.inj ha]
      exact hopen
    · exact h.unlinked ha hstay

/-- A commit of an artefact that the ledger has not seen yet keeps the ledger coherent. -/
theorem coherent_commit {l l' : Ledger} (h : Coherent l) {c : Commit} {b : Artefact}
    (hok : l.commit c = (.ok b, l')) (hnew : l.get? c.artefact.id = none)
    (hstate : c.artefact.state = .current) (hopen : c.artefact.supersededBy = none)
    (hfirst : c.artefact.supersedes = none) : Coherent l' := by
  obtain ⟨hindex, ⟨hnone, happend⟩ | ⟨id, prior, closed, hsome, hprior, hsup, happend⟩⟩ :=
    commit_eq_ok hok
  · have hdone := (h.awaiting (hindex.trans hnone) hfirst).append hnew hstate hopen
    rwa [happend] at hdone
  · obtain rfl : prior.id = id := h.ids hprior
    obtain ⟨a, ha, hkey, -⟩ := (h.indexed c.artefact.key prior.id).mp (hindex.trans hsome)
    obtain rfl : a = prior := Option.some.inj (ha.symm.trans hprior)
    have hfresh : (l.refile a.id closed).get? c.artefact.id = none := by
      rw [get?_refile, if_neg (ne_of_new hnew ha).symm]
      exact hnew
    have hdone := (h.awaiting_superseded ha hkey hsup).append hfresh hstate hopen
    rwa [happend] at hdone

end Ledger

end CauseLists
