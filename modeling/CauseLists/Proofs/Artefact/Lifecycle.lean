-- How an artefact leaves the current state. It can leave it once: it is superseded, or its display
-- window has ended and it expires. Either way it stays the same record in everything but the state,
-- the link to its successor, the end of the effective window and the log.
import CauseLists.Artefact.Basic
import CauseLists.Proofs.Calendar.Order

namespace CauseLists.Artefact

/-- What no change of state touches. -/
structure SameRecord (a b : Artefact) : Prop where
  id : b.id = a.id
  envelope : b.envelope = a.envelope
  body : b.body = a.body
  effectiveFrom : b.effectiveFrom = a.effectiveFrom
  supersedes : b.supersedes = a.supersedes
  sequence : b.sequence = a.sequence
  receivedAt : b.receivedAt = a.receivedAt

theorem SameRecord.refl (a : Artefact) : SameRecord a a := ⟨rfl, rfl, rfl, rfl, rfl, rfl, rfl⟩

theorem SameRecord.trans {a b c : Artefact} (h : SameRecord a b) (h' : SameRecord b c) :
    SameRecord a c :=
  ⟨h'.id.trans h.id, h'.envelope.trans h.envelope, h'.body.trans h.body,
    h'.effectiveFrom.trans h.effectiveFrom, h'.supersedes.trans h.supersedes,
    h'.sequence.trans h.sequence, h'.receivedAt.trans h.receivedAt⟩

theorem SameRecord.symm {a b : Artefact} (h : SameRecord a b) : SameRecord b a :=
  ⟨h.id.symm, h.envelope.symm, h.body.symm, h.effectiveFrom.symm, h.supersedes.symm,
    h.sequence.symm, h.receivedAt.symm⟩

theorem SameRecord.key {a b : Artefact} (h : SameRecord a b) : b.key = a.key :=
  congrArg Envelope.key h.envelope

theorem isTerminal_eq_false_iff (s : ArtefactState) : s.isTerminal = false ↔ s = .current := by
  cases s <;> simp [ArtefactState.isTerminal]

theorem hasEnded_iff (a : Artefact) (now : Instant) :
    a.hasEnded now = true ↔ a.envelope.displayTo < now := by
  simp [hasEnded, Envelope.hasEnded]

theorem hasEnded_eq_false_iff (a : Artefact) (now : Instant) :
    a.hasEnded now = false ↔ now ≤ a.envelope.displayTo := by
  rw [← Bool.not_eq_true, a.hasEnded_iff]
  exact ⟨Instant.le_of_not_lt, Instant.not_lt_of_le⟩

theorem requireCurrent_of_current {a : Artefact} (h : a.state = .current)
    (target : ArtefactState) : a.requireCurrent target = .ok () := by
  simp [requireCurrent, h, ArtefactState.isTerminal]

theorem current_of_requireCurrent {a : Artefact} {target : ArtefactState}
    (h : a.requireCurrent target = .ok ()) : a.state = .current := by
  unfold requireCurrent at h
  split at h
  · cases h
  · rename_i hlive
    exact (isTerminal_eq_false_iff a.state).mp (by simpa using hlive)

/-! ## Superseding -/

theorem supersede_of_current {a : Artefact} (h : a.state = .current) (successor : ArtefactId)
    (now : Instant) : ∃ b, a.supersede successor now = (.ok (), b) := by
  unfold supersede
  rw [requireCurrent_of_current h]
  exact ⟨_, rfl⟩

/-- An artefact that refuses to be superseded is left as it was. -/
theorem supersede_of_error {a b : Artefact} {successor : ArtefactId} {now : Instant}
    {e : TransitionError} (h : a.supersede successor now = (.error e, b)) : b = a := by
  unfold supersede at h
  split at h
  · exact (Prod.mk.inj h).2.symm
  · cases h

/-- What superseding does, if it is done. -/
structure Superseded (a : Artefact) (successor : ArtefactId) (now : Instant) (b : Artefact) :
    Prop where
  was : a.state = .current
  record : SameRecord a b
  state : b.state = .superseded
  supersededBy : b.supersededBy = some successor
  effectiveTo : b.effectiveTo = (a.effectiveTo.earlier now).later a.effectiveFrom
  log : b.transitions =
    a.transitions ++ [⟨.current, .superseded, now, "superseded by " ++ successor.text⟩]

theorem supersede_spec {a b : Artefact} {successor : ArtefactId} {now : Instant}
    (h : a.supersede successor now = (.ok (), b)) : Superseded a successor now b := by
  unfold supersede at h
  split at h
  · cases h
  · rename_i hrequire
    have hcurrent := current_of_requireCurrent hrequire
    obtain rfl := (Prod.mk.inj h).2
    exact ⟨hcurrent, ⟨rfl, rfl, rfl, rfl, rfl, rfl, rfl⟩, rfl, rfl, rfl, by simp [enter, hcurrent]⟩

/-! ## Expiring -/

theorem expire_of_current {a : Artefact} {now : Instant} (h : a.state = .current)
    (hended : a.hasEnded now = true) : ∃ b, a.expire now = (.ok (), b) := by
  unfold expire
  rw [requireCurrent_of_current h]
  exact ⟨_, if_pos hended⟩

/-- An artefact that refuses to expire is left as it was. -/
theorem expire_of_error {a b : Artefact} {now : Instant} {e : TransitionError}
    (h : a.expire now = (.error e, b)) : b = a := by
  unfold expire at h
  split at h
  · exact (Prod.mk.inj h).2.symm
  · split at h
    · cases h
    · exact (Prod.mk.inj h).2.symm

/-- What expiring does, if it is done. -/
structure Expired (a : Artefact) (now : Instant) (b : Artefact) : Prop where
  was : a.state = .current
  ended : a.hasEnded now = true
  record : SameRecord a b
  state : b.state = .expired
  supersededBy : b.supersededBy = a.supersededBy
  effectiveTo : b.effectiveTo = a.effectiveTo
  log : b.transitions = a.transitions ++ [⟨.current, .expired, now, "display window ended"⟩]

theorem expire_spec {a b : Artefact} {now : Instant} (h : a.expire now = (.ok (), b)) :
    Expired a now b := by
  unfold expire at h
  split at h
  · cases h
  · split at h
    · rename_i hrequire hended
      have hcurrent := current_of_requireCurrent hrequire
      obtain rfl := (Prod.mk.inj h).2
      exact ⟨hcurrent, hended, ⟨rfl, rfl, rfl, rfl, rfl, rfl, rfl⟩, rfl, rfl, rfl,
        by simp [enter, hcurrent]⟩
    · cases h

/-! ## Leaving -/

/-- An artefact has left the current state by one change, which is the last line of its log. -/
structure Leaves (a b : Artefact) : Prop where
  was : a.state = .current
  left : b.state ≠ .current
  record : SameRecord a b
  log : ∃ time reason, b.transitions = a.transitions ++ [⟨.current, b.state, time, reason⟩]

theorem Superseded.leaves {a b : Artefact} {successor : ArtefactId} {now : Instant}
    (h : Superseded a successor now b) : Leaves a b where
  was := h.was
  left := by simp [h.state]
  record := h.record
  log := ⟨now, _, h.state ▸ h.log⟩

theorem Expired.leaves {a b : Artefact} {now : Instant} (h : Expired a now b) : Leaves a b where
  was := h.was
  left := by simp [h.state]
  record := h.record
  log := ⟨now, _, h.state ▸ h.log⟩

end CauseLists.Artefact
