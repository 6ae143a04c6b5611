-- What stands where after a commit or an expiry. Each lookup afterwards is told by the lookups
-- before: the new artefact under its own identifier, the closed one under the old, everything else
-- as it was.
import CauseLists.Proofs.Ledger.Steps

namespace CauseLists

namespace Ledger

variable {l l' : Ledger} {b : Artefact}

/-! ## Commits -/

section

variable {c : Commit}

theorem commit_sequence (hok : l.commit c = (.ok b, l')) : b.sequence = l.lastSequence + 1 := by
  obtain ⟨-, ⟨-, happend⟩ | ⟨id, prior, closed, -, -, -, happend⟩⟩ := commit_eq_ok hok
  all_goals
    obtain rfl := congrArg Prod.fst happend
    rfl

/-- What a commit answers with is told by the counter and what it replaces. -/
theorem commit_answer (hok : l.commit c = (.ok b, l')) (hfirst : c.artefact.supersedes = none) :
    b = { c.artefact with supersedes := c.supersedes, sequence := l.lastSequence + 1 } := by
  obtain ⟨-, ⟨hnone, happend⟩ | ⟨id, prior, closed, hsome, -, -, happend⟩⟩ := commit_eq_ok hok
  · obtain rfl := congrArg Prod.fst happend
    rw [hnone, ← hfirst]
    rfl
  · obtain rfl := congrArg Prod.fst happend
    rw [hsome]
    rfl

/-- A new artefact is linked to the one that it replaces. -/
theorem commit_supersedes (hok : l.commit c = (.ok b, l')) (hfirst : c.artefact.supersedes = none) :
    b.supersedes = c.supersedes := by
  rw [commit_answer hok hfirst]

/-- The index names the new artefact under its key, and what it named before under any other. -/
theorem current_commit (hok : l.commit c = (.ok b, l')) (key : IdentityKey) :
    Table.get? key l'.current =
      if key = c.artefact.key then some c.artefact.id else Table.get? key l.current := by
  obtain ⟨-, ⟨-, happend⟩ | ⟨id, prior, closed, -, -, -, happend⟩⟩ := commit_eq_ok hok
  all_goals
    obtain rfl := congrArg Prod.snd happend
    exact current_append _ _ key

/-- A commit changes no artefact but its own and the one that it replaces. -/
theorem get?_commit_of_ne (hok : l.commit c = (.ok b, l')) {id : ArtefactId}
    (hnew : id ≠ c.artefact.id) (hprior : c.supersedes ≠ some id) : l'.get? id = l.get? id := by
  obtain ⟨-, ⟨-, happend⟩ | ⟨prior, old, closed, hsome, -, -, happend⟩⟩ := commit_eq_ok hok
  · obtain rfl := congrArg Prod.snd happend
    rw [get?_append, if_neg hnew]
  · obtain rfl := congrArg Prod.snd happend
    have hne : id ≠ prior := by
      rintro rfl
      exact hprior hsome
    rw [get?_append, if_neg hnew, get?_refile, if_neg hne]

/-- The artefact that is replaced is superseded by the new one. -/
theorem get?_commit_prior (hok : l.commit c = (.ok b, l')) {id : ArtefactId}
    (hprior : c.supersedes = some id) (hnew : id ≠ c.artefact.id) :
    ∃ prior closed, l.get? id = some prior ∧ prior.Superseded c.artefact.id c.now closed ∧
      l'.get? id = some closed := by
  obtain ⟨-, ⟨hnone, -⟩ | ⟨_, prior, closed, hsome, hget, hsup, happend⟩⟩ := commit_eq_ok hok
  · rw [hprior] at hnone
    cases hnone
  · obtain rfl := Option.some.inj (hprior.symm.trans hsome)
    obtain rfl := congrArg Prod.snd happend
    refine ⟨prior, closed, hget, hsup, ?_⟩
    rw [get?_append, if_neg hnew, get?_refile, if_pos rfl]

/-- An artefact stays the same record through a commit. -/
theorem record_kept_by_commit (hok : l.commit c = (.ok b, l')) (hnew : l.get? c.artefact.id = none)
    {id : ArtefactId} {a : Artefact} (ha : l.get? id = some a) :
    ∃ a', l'.get? id = some a' ∧ a.SameRecord a' := by
  have hne : id ≠ c.artefact.id := ne_of_new hnew ha
  by_cases hprior : c.supersedes = some id
  · obtain ⟨prior, closed, hget, hsup, hclosed⟩ := get?_commit_prior hok hprior hne
    obtain rfl := Option.some.inj (ha.symm.trans hget)
    exact ⟨closed, hclosed, hsup.record⟩
  · exact ⟨a, (get?_commit_of_ne hok hne hprior).trans ha, .refl a⟩

end

/-! ## Expiries -/

section

variable {id : ArtefactId} {now : Instant}

/-- An expiry changes no artefact but the one that expires. -/
theorem get?_expire (hok : l.expire id now = (.ok b, l')) (other : ArtefactId) :
    l'.get? other = if other = id then some b else l.get? other := by
  obtain ⟨a, -, -, rfl⟩ := expire_eq_ok hok
  exact get?_refile l id other b

/-- An artefact stays the same record through an expiry. -/
theorem record_kept_by_expire (hok : l.expire id now = (.ok b, l')) {other : ArtefactId}
    {a : Artefact} (ha : l.get? other = some a) :
    ∃ a', l'.get? other = some a' ∧ a.SameRecord a' := by
  rw [get?_expire hok]
  split
  · rename_i hsame
    obtain ⟨old, hold, hexp, -⟩ := expire_eq_ok hok
    obtain rfl := Option.some.inj (ha.symm.trans (hsame ▸ hold))
    exact ⟨b, rfl, hexp.record⟩
  · exact ⟨a, ha, .refl a⟩

end

/-! ## Changes under one key -/

/-- A change has to do with one key only: other keys keep what is current under them, and every
artefact stays the same record. -/
structure ChangesUnder (key : IdentityKey) (l l' : Ledger) : Prop where
  elsewhere : ∀ other, other ≠ key → l'.currentFor other = l.currentFor other
  records : ∀ {id a}, l.get? id = some a → ∃ a', l'.get? id = some a' ∧ a.SameRecord a'

theorem ChangesUnder.refl (key : IdentityKey) (l : Ledger) : ChangesUnder key l l :=
  ⟨fun _ _ => rfl, fun ha => ⟨_, ha, .refl _⟩⟩

theorem ChangesUnder.trans {key : IdentityKey} {l l' l'' : Ledger} (h : ChangesUnder key l l')
    (h' : ChangesUnder key l' l'') : ChangesUnder key l l'' where
  elsewhere := fun other hne => (h'.elsewhere other hne).trans (h.elsewhere other hne)
  records := by
    intro id a ha
    obtain ⟨a', ha', hsame⟩ := h.records ha
    obtain ⟨a'', ha'', hsame'⟩ := h'.records ha'
    exact ⟨a'', ha'', hsame.trans hsame'⟩

/-- What is current under a key stays if its index entry stays and the artefact is left alone. -/
theorem currentFor_eq_of_index {key : IdentityKey}
    (hindex : Table.get? key l'.current = Table.get? key l.current)
    (hget : ∀ id, Table.get? key l.current = some id → l'.get? id = l.get? id) :
    l'.currentFor key = l.currentFor key := by
  unfold currentFor
  rw [hindex]
  cases hid : Table.get? key l.current with
  | none => rfl
  | some id => exact hget id hid

theorem changesUnder_commit {c : Commit} (h : Coherent l) (hok : l.commit c = (.ok b, l'))
    (hnew : l.get? c.artefact.id = none) : ChangesUnder c.artefact.key l l' := by
  refine ⟨?_, fun ha => record_kept_by_commit hok hnew ha⟩
  intro other hother
  refine currentFor_eq_of_index ((current_commit hok other).trans (if_neg hother)) ?_
  intro id hid
  obtain ⟨a, ha, hkey, -⟩ := (h.indexed other id).mp hid
  refine get?_commit_of_ne hok (ne_of_new hnew ha) ?_
  intro hprior
  obtain ⟨a', ha', hkey', -⟩ :=
    (h.indexed c.artefact.key id).mp ((commit_eq_ok hok).1.trans hprior)
  obtain rfl := Option.some.inj (ha.symm.trans ha')
  exact hother (hkey.symm.trans hkey')

theorem changesUnder_expire {a : Artefact} {now : Instant} (h : Coherent l)
    (ha : l.get? a.id = some a) (hok : l.expire a.id now = (.ok b, l')) :
    ChangesUnder a.key l l' := by
  refine ⟨?_, fun hget => record_kept_by_expire hok hget⟩
  intro other hother
  refine currentFor_eq_of_index ?_ ?_
  · obtain ⟨a', hid, ha', -, rfl⟩ := h.expire_eq_ok hok
    obtain rfl : a = a' := Option.some.inj (ha.symm.trans (hid ▸ ha'))
    exact Table.get?_erase_of_ne hother _
  · intro id hid
    obtain ⟨a', ha', hkey', -⟩ := (h.indexed other id).mp hid
    rw [get?_expire hok, if_neg]
    rintro rfl
    obtain rfl := Option.some.inj (ha.symm.trans ha')
    exact hother hkey'.symm

/-! ## The largest sequence number -/

/-- The largest sequence number of an artefact; 0 if there is none. -/
def largestSequence (l : Ledger) : Nat :=
  ((Table.values l.artefacts).map Artefact.sequence).foldl max 0

theorem foldl_max_range' (n : Nat) : (List.range' 1 n).foldl max 0 = n := by
  induction n with
  | zero => rfl
  | succ n ih =>
    rw [List.range'_concat, List.foldl_append, ih]
    simp only [List.foldl_cons, List.foldl_nil]
    omega

/-- The counter stands at the largest number. -/
theorem Filed.largestSequence_eq (h : Filed l) : l.largestSequence = l.lastSequence := by
  rw [largestSequence, h.numbered, foldl_max_range']

end Ledger

end CauseLists
