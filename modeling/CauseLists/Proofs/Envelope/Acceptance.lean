-- What an accepted envelope holds. It is accepted exactly if every field has a verdict of its own
-- without an issue, and then the fields are those of the verdicts: its texts are trimmed, and its
-- display does not end before it starts.
import CauseLists.Envelope.Acceptance
import CauseLists.Proofs.Calendar.Order
import CauseLists.Proofs.Results
import CauseLists.Proofs.Text.Trimming

namespace CauseLists.EnvelopePolicy

/-! ## Single fields -/

theorem nonBlank_eq_ok_iff {field : EnvelopeField} {text : Option String} {canonical : String} :
    nonBlank field text = .ok canonical ↔
      ∃ raw, text = some raw ∧ Text.trim raw = canonical ∧ canonical ≠ "" := by
  cases text with
  | none => simp [nonBlank]
  | some raw =>
    unfold nonBlank
    dsimp only
    split
    · rename_i hblank
      simp [hblank]
    · rename_i hblank
      simp only [Except.ok.injEq, Option.some.injEq, exists_eq_left']
      constructor
      · rintro rfl
        exact ⟨rfl, hblank⟩
      · rintro ⟨rfl, -⟩
        rfl

/-- A text that is there is trimmed. -/
theorem trimmed_of_nonBlank {field : EnvelopeField} {text : Option String} {canonical : String}
    (h : nonBlank field text = .ok canonical) :
    Text.trim canonical = canonical ∧ canonical ≠ "" := by
  obtain ⟨raw, -, rfl, hne⟩ := nonBlank_eq_ok_iff.mp h
  exact ⟨Text.trim_trim raw, hne⟩

/-- White space alone leaves an identifier out, and what is left in is trimmed. -/
theorem trimmed_of_maybeBlank {text : Option String} {id : String}
    (h : maybeBlank text = some id) : Text.trim id = id ∧ id ≠ "" := by
  rw [maybeBlank, Option.filter_eq_some_iff] at h
  obtain ⟨hmap, hne⟩ := h
  obtain ⟨raw, -, rfl⟩ := Option.map_eq_some_iff.mp hmap
  exact ⟨Text.trim_trim raw, by simpa using hne⟩

/-- An identifier that is there is trimmed, and it is there if it is required. -/
theorem trimmed_of_sourceId {p : EnvelopePolicy} {text canonical : Option String}
    (h : p.sourceId text = .ok canonical) :
    (∀ id, canonical = some id → Text.trim id = id ∧ id ≠ "") ∧
      (p.sourceIds = .required → canonical ≠ none) := by
  unfold sourceId at h
  cases hmode : p.sourceIds with
  | required =>
    rw [hmode] at h
    obtain ⟨id, hid, rfl⟩ := map_eq_ok_iff.mp h
    refine ⟨?_, by simp⟩
    rintro _ ⟨⟩
    exact trimmed_of_nonBlank hid
  | optional =>
    rw [hmode] at h
    obtain rfl := Except.ok.inj h
    exact ⟨fun id hid => trimmed_of_maybeBlank hid, by simp⟩

theorem word_eq_ok_iff {α : Type} {field : EnvelopeField} {v : Vocabulary α}
    {text : Option String} {a : α} :
    word field v text = .ok a ↔ ∃ raw, text = some raw ∧ v.parse raw = .ok a := by
  cases text with
  | none => simp [word]
  | some raw =>
    simp only [word, Option.some.injEq, exists_eq_left']
    cases v.parse raw <;> simp

theorem listType_eq_ok_iff {text : Option String} {t : ListType} :
    listType text = .ok t ↔ ∃ raw, text = some raw ∧ ListType.parse raw = .ok t := by
  cases text with
  | none => simp [listType]
  | some raw =>
    simp only [listType, Option.some.injEq, exists_eq_left']
    cases ListType.parse raw <;> simp

/-- A display window does not end before it starts. -/
theorem le_of_window {p : EnvelopePolicy} {start ending : Option Instant}
    {displayFrom displayTo : Instant}
    (h : p.window start ending = .ok (displayFrom, displayTo)) :
    displayFrom ≤ displayTo := by
  unfold window at h
  split at h
  · cases h
  · split at h
    · cases h
    · obtain ⟨rfl, rfl⟩ := Prod.mk.inj (Except.ok.inj h)
      exact Instant.le_of_not_lt ‹_›
  · split at h
    · cases h
    · split at h
      · cases h
      · obtain ⟨rfl, rfl⟩ := Prod.mk.inj (Except.ok.inj h)
        exact Instant.le_of_not_lt ‹_›

/-! ## The whole envelope -/

/-- An envelope is accepted exactly if every field is. -/
theorem accept_eq_ok_iff {p : EnvelopePolicy} {e : SubmittedEnvelope} {envelope : Envelope} :
    p.accept e = .ok envelope ↔
      nonBlank .provenance e.provenance = .ok envelope.provenance ∧
      nonBlank .location e.location = .ok envelope.location ∧
      p.sourceId e.sourceId = .ok envelope.sourceId ∧
      word .artefactType ArtefactType.vocabulary e.artefactType = .ok envelope.artefactType ∧
      word .sensitivity Sensitivity.vocabulary e.sensitivity = .ok envelope.sensitivity ∧
      word .language Language.vocabulary e.language = .ok envelope.language ∧
      present .contentDate e.contentDate = .ok envelope.contentDate ∧
      listType e.listType = .ok envelope.listType ∧
      p.window e.displayFrom e.displayTo = .ok (envelope.displayFrom, envelope.displayTo) := by
  unfold accept
  constructor
  · intro h
    dsimp only at h
    split at h
    · rename_i hprovenance hlocation hsource htype hsensitivity hlanguage hdate hlist hwindow
      obtain rfl := Except.ok.inj h
      exact ⟨hprovenance, hlocation, hsource, htype, hsensitivity, hlanguage, hdate, hlist, hwindow⟩
    · cases h
  · rintro ⟨hprovenance, hlocation, hsource, htype, hsensitivity, hlanguage, hdate, hlist, hwindow⟩
    simp only [hprovenance, hlocation, hsource, htype, hsensitivity, hlanguage, hdate, hlist,
      hwindow]

end CauseLists.EnvelopePolicy
