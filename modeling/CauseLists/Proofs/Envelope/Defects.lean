-- What an envelope is refused for. A field is defective by what it holds; only the end of display
-- is judged by the start as well. The report has one issue for every field that is defective, in
-- the order of the fields, and no other, and an envelope without a defect is accepted.
import CauseLists.Proofs.Calendar.DaysLater
import CauseLists.Proofs.Envelope.Acceptance
import CauseLists.Proofs.Envelope.Words
import CauseLists.Proofs.ListType

namespace CauseLists

/-- The fields of an envelope in the order of a report. -/
def EnvelopeField.inOrder : List EnvelopeField :=
  [.provenance, .location, .sourceId, .artefactType, .sensitivity, .language, .contentDate,
    .listType, .displayFrom, .displayTo]

/-! ## Defects -/

/-- A text that is not there, or that holds nothing but white space. -/
def Lacking (text : Option String) : Prop :=
  ∀ raw, text = some raw → Text.isBlankText raw = true

/-- A text that is not there, or that is the word of nothing, whatever its case and the white space
around it. -/
def Unnamed {α : Type} (word : α → String) (text : Option String) : Prop :=
  ∀ raw, text = some raw → ∀ a, Text.upperAscii (word a) ≠ Text.upperAscii (Text.trim raw)

/-- The second that comes so many days after an instant is not in the calendar, or it comes before
the instant. -/
def Instant.LeadsAstray (t : Instant) (days : Int) : Prop :=
  t.secondsAfter days < firstSecond ∨ lastSecond < t.secondsAfter days ∨
    t.secondsAfter days < t.seconds

namespace SubmittedEnvelope

/-- What makes a field of a submitted envelope defective. -/
def Defective (p : EnvelopePolicy) (e : SubmittedEnvelope) : EnvelopeField → Prop
  | .provenance => Lacking e.provenance
  | .location => Lacking e.location
  | .sourceId => p.sourceIds = .required ∧ Lacking e.sourceId
  | .artefactType => Unnamed ArtefactType.word e.artefactType
  | .sensitivity => Unnamed Sensitivity.word e.sensitivity
  | .language => Unnamed Language.word e.language
  | .contentDate => e.contentDate = none
  | .listType => Unnamed ListType.name e.listType
  | .displayFrom => e.displayFrom = none
  | .displayTo => ∃ start, e.displayFrom = some start ∧
      ((∃ ending, e.displayTo = some ending ∧ ending < start) ∨
        e.displayTo = none ∧ start.LeadsAstray p.defaultDays)

/-- Two envelopes hold the same in a field. -/
def Agree (e e' : SubmittedEnvelope) : EnvelopeField → Prop
  | .provenance => e'.provenance = e.provenance
  | .location => e'.location = e.location
  | .sourceId => e'.sourceId = e.sourceId
  | .artefactType => e'.artefactType = e.artefactType
  | .sensitivity => e'.sensitivity = e.sensitivity
  | .language => e'.language = e.language
  | .contentDate => e'.contentDate = e.contentDate
  | .listType => e'.listType = e.listType
  | .displayFrom => e'.displayFrom = e.displayFrom
  | .displayTo => e'.displayTo = e.displayTo

/-- What a field other than the end of display holds decides whether it is defective. -/
theorem defective_congr {p p' : EnvelopePolicy} {e e' : SubmittedEnvelope} {f : EnvelopeField}
    (hend : f ≠ .displayTo) (hmode : f = .sourceId → p'.sourceIds = p.sourceIds)
    (h : e.Agree e' f) : e'.Defective p' f ↔ e.Defective p f := by
  cases f with
  | displayTo => exact absurd rfl hend
  | sourceId =>
    change e'.sourceId = e.sourceId at h
    simp only [Defective, h, hmode rfl]
  | _ =>
    simp only [Agree] at h
    simp only [Defective, h]

end SubmittedEnvelope

namespace EnvelopePolicy

/-! ## Verdicts -/

/-- A verdict on a field finds nothing wrong, or it is the issue of a defect. -/
inductive Judges {α : Type} (field : EnvelopeField) (defect : Prop) :
    Except EnvelopeIssue α → Prop
  | right {a : α} (h : ¬ defect) : Judges field defect (.ok a)
  | wrong {d : EnvelopeDefect} (h : defect) : Judges field defect (.error ⟨field, d⟩)

theorem Judges.map {α β : Type} {field : EnvelopeField} {defect : Prop}
    {x : Except EnvelopeIssue α} (h : Judges field defect x) (f : α → β) :
    Judges field defect (x.map f) := by
  cases h with
  | right h => exact .right h
  | wrong h => exact .wrong h

theorem judges_present {α : Type} (field : EnvelopeField) (value : Option α) :
    Judges field (value = none) (present field value) := by
  cases value with
  | none => exact .wrong rfl
  | some a => exact .right (by simp)

theorem judges_nonBlank (field : EnvelopeField) (text : Option String) :
    Judges field (Lacking text) (nonBlank field text) := by
  cases text with
  | none => exact .wrong (by simp [Lacking])
  | some raw =>
    unfold nonBlank
    dsimp only
    split
    · rename_i hblank
      exact .wrong (by simpa [Lacking] using (Text.trim_eq_empty_iff raw).mp hblank)
    · rename_i hblank
      exact .right (fun h => hblank ((Text.trim_eq_empty_iff raw).mpr (h raw rfl)))

theorem judges_sourceId (p : EnvelopePolicy) (text : Option String) :
    Judges .sourceId (p.sourceIds = .required ∧ Lacking text) (p.sourceId text) := by
  unfold sourceId
  cases p.sourceIds with
  | optional => exact .right (by simp)
  | required =>
    simp only [true_and]
    exact (judges_nonBlank .sourceId text).map some

theorem judges_word {α : Type} {v : Vocabulary α} (hv : v.Faithful) (field : EnvelopeField)
    (text : Option String) : Judges field (Unnamed v.word text) (word field v text) := by
  cases text with
  | none => exact .wrong (by simp [Unnamed])
  | some raw =>
    unfold word
    dsimp only
    cases hparse : v.parse raw with
    | ok a => exact .right (fun h => h raw rfl a ((hv.parse_eq_ok_iff raw a).mp hparse))
    | error e =>
      refine .wrong ?_
      rintro _ ⟨⟩ a hword
      rw [(hv.parse_eq_ok_iff raw a).mpr hword] at hparse
      cases hparse

theorem judges_listType (text : Option String) :
    Judges .listType (Unnamed ListType.name text) (listType text) := by
  cases text with
  | none => exact .wrong (by simp [Unnamed])
  | some raw =>
    unfold listType
    dsimp only
    cases hparse : ListType.parse raw with
    | ok t =>
      refine .right (fun h => h raw rfl t ?_)
      rw [t.upperAscii_name]
      exact (ListType.parse_eq_ok_iff raw t).mp hparse
    | error e =>
      refine .wrong ?_
      rintro _ ⟨⟩ t hname
      rw [t.upperAscii_name] at hname
      rw [(ListType.parse_eq_ok_iff raw t).mpr hname] at hparse
      cases hparse

/-- The end that is due some days after the start is an instant and does not come before the start,
or the days lead astray. -/
theorem plusDays_cases (t : Instant) (days : Int) :
    (t.plusDays days = .error ⟨t, days⟩ ∧ t.LeadsAstray days) ∨
    ∃ due, t.plusDays days = .ok due ∧ (due < t ↔ t.LeadsAstray days) := by
  unfold Instant.LeadsAstray
  by_cases hin : Instant.InCalendar (t.secondsAfter days)
  · obtain ⟨due, hdue⟩ := Instant.exists_plusDays_iff.mpr hin
    refine .inr ⟨due, hdue, ?_⟩
    show due.seconds < t.seconds ↔ _
    rw [Instant.plusDays_eq_ok_iff.mp hdue]
    rw [Instant.inCalendar_iff] at hin
    omega
  · refine .inl ⟨Instant.plusDays_eq_error_iff.mpr ⟨rfl, hin⟩, ?_⟩
    rw [Instant.inCalendar_iff] at hin
    omega

/-! ## The report -/

/-- The issues of an envelope in the order of its fields. -/
def issues (p : EnvelopePolicy) (e : SubmittedEnvelope) : List EnvelopeIssue :=
  [issueOf (nonBlank .provenance e.provenance), issueOf (nonBlank .location e.location),
    issueOf (p.sourceId e.sourceId),
    issueOf (word .artefactType ArtefactType.vocabulary e.artefactType),
    issueOf (word .sensitivity Sensitivity.vocabulary e.sensitivity),
    issueOf (word .language Language.vocabulary e.language),
    issueOf (present .contentDate e.contentDate), issueOf (listType e.listType),
    issueOf (p.window e.displayFrom e.displayTo)].filterMap id

theorem issueOf_eq_none_iff {α : Type} (x : Except EnvelopeIssue α) :
    issueOf x = none ↔ ∃ a, x = .ok a := by
  cases x <;> simp [issueOf]

/-- An envelope is accepted if it has no issue, and refused with its issues otherwise. -/
theorem accept_cases (p : EnvelopePolicy) (e : SubmittedEnvelope) :
    (∃ envelope, p.accept e = .ok envelope ∧ p.issues e = []) ∨
    p.accept e = .error ⟨p.issues e⟩ ∧ p.issues e ≠ [] := by
  cases haccept : p.accept e with
  | ok envelope =>
    obtain ⟨h₁, h₂, h₃, h₄, h₅, h₆, h₇, h₈, h₉⟩ := accept_eq_ok_iff.mp haccept
    refine .inl ⟨envelope, rfl, ?_⟩
    simp only [issues, h₁, h₂, h₃, h₄, h₅, h₆, h₇, h₈, h₉]
    rfl
  | error r =>
    have hissues : r = ⟨p.issues e⟩ := by
      unfold accept at haccept
      dsimp only at haccept
      split at haccept
      · cases haccept
      · exact (Except.error.inj haccept).symm
    refine .inr ⟨by rw [hissues], ?_⟩
    intro hnone
    rw [issues, List.filterMap_eq_nil_iff] at hnone
    simp only [List.forall_mem_cons, id_eq, issueOf_eq_none_iff] at hnone
    obtain ⟨⟨provenance, h₁⟩, ⟨location, h₂⟩, ⟨sourceId, h₃⟩, ⟨artefactType, h₄⟩,
      ⟨sensitivity, h₅⟩, ⟨language, h₆⟩, ⟨contentDate, h₇⟩, ⟨listType, h₈⟩,
      ⟨⟨displayFrom, displayTo⟩, h₉⟩, -⟩ := hnone
    have hok : p.accept e = .ok ⟨provenance, sourceId, artefactType, sensitivity, language,
        displayFrom, displayTo, listType, location, contentDate⟩ :=
      accept_eq_ok_iff.mpr ⟨h₁, h₂, h₃, h₄, h₅, h₆, h₇, h₈, h₉⟩
    rw [haccept] at hok
    cases hok

/-! ## The fields of a report -/

/-- Some fields are those of a row that are defective, in the order of the row. -/
structure Names (p : EnvelopePolicy) (e : SubmittedEnvelope) (row named : List EnvelopeField) :
    Prop where
  inOrder : named.Sublist row
  exact : ∀ f, f ∈ named ↔ f ∈ row ∧ e.Defective p f

variable {p : EnvelopePolicy} {e : SubmittedEnvelope}

/-- A verdict on one more field. -/
theorem Judges.cons {α : Type} {field : EnvelopeField} {x : Except EnvelopeIssue α}
    {row : List EnvelopeField} {rest : List (Option EnvelopeIssue)}
    (h : Judges field (e.Defective p field) x)
    (hrest : Names p e row ((rest.filterMap id).map EnvelopeIssue.field)) :
    Names p e (field :: row) (((issueOf x :: rest).filterMap id).map EnvelopeIssue.field) := by
  cases h with
  | right h =>
    refine ⟨hrest.inOrder.cons field, fun f => ?_⟩
    refine (hrest.exact f).trans ⟨fun ⟨hf, hdefect⟩ => ⟨.tail _ hf, hdefect⟩, ?_⟩
    rintro ⟨hf, hdefect⟩
    rcases List.mem_cons.mp hf with rfl | hf
    · exact absurd hdefect h
    · exact ⟨hf, hdefect⟩
  | @wrong d h =>
    refine ⟨hrest.inOrder.cons_cons field, fun f => ?_⟩
    show f ∈ field :: (rest.filterMap id).map EnvelopeIssue.field ↔ _
    rw [List.mem_cons, List.mem_cons, hrest.exact, or_and_right]
    refine or_congr_left ⟨?_, And.left⟩
    rintro rfl
    exact ⟨rfl, h⟩

/-- The display window has one defect at most, for its end is not looked at without a start. -/
theorem names_window (p : EnvelopePolicy) (e : SubmittedEnvelope) :
    Names p e [.displayFrom, .displayTo]
      (([issueOf (p.window e.displayFrom e.displayTo)].filterMap id).map EnvelopeIssue.field) := by
  unfold window
  cases hfrom : e.displayFrom with
  | none =>
    refine ⟨by simp [issueOf], fun f => ?_⟩
    cases f <;> simp [issueOf, SubmittedEnvelope.Defective, hfrom]
  | some start =>
    -- The start is right, so what is reported is told by the end alone.
    have hwindow : ∀ {x : Except EnvelopeIssue (Instant × Instant)},
        Judges .displayTo (e.Defective p .displayTo) x → Names p e [.displayFrom, .displayTo]
          (([issueOf x].filterMap id).map EnvelopeIssue.field) := by
      intro x hx
      have hto : Names p e [.displayTo] (([issueOf x].filterMap id).map EnvelopeIssue.field) :=
        hx.cons ⟨.slnil, by simp⟩
      refine ⟨hto.inOrder.cons _, fun f => (hto.exact f).trans ?_⟩
      cases f <;> simp [SubmittedEnvelope.Defective, hfrom]
    refine hwindow ?_
    cases hto : e.displayTo with
    | some ending =>
      dsimp only
      split
      · exact .wrong ⟨start, hfrom, .inl ⟨ending, hto, ‹_›⟩⟩
      · exact .right (by simpa [SubmittedEnvelope.Defective, hfrom, hto])
    | none =>
      dsimp only
      rcases plusDays_cases start p.defaultDays with ⟨hout, hastray⟩ | ⟨due, hdue, hiff⟩
      · rw [hout]
        exact .wrong ⟨start, hfrom, .inr ⟨hto, hastray⟩⟩
      · rw [hdue]
        dsimp only
        split
        · exact .wrong ⟨start, hfrom, .inr ⟨hto, hiff.mp ‹_›⟩⟩
        · exact .right (by simpa [SubmittedEnvelope.Defective, hfrom, hto, ← hiff])

/-- The issues of an envelope name the fields that are defective. -/
theorem names_issues (p : EnvelopePolicy) (e : SubmittedEnvelope) :
    Names p e EnvelopeField.inOrder ((p.issues e).map EnvelopeIssue.field) :=
  Judges.cons (judges_nonBlank _ _) <| Judges.cons (judges_nonBlank _ _) <|
  Judges.cons (judges_sourceId p _) <| Judges.cons (judges_word ArtefactType.faithful _ _) <|
  Judges.cons (judges_word Sensitivity.faithful _ _) <|
  Judges.cons (judges_word Language.faithful _ _) <| Judges.cons (judges_present _ _) <|
  Judges.cons (judges_listType _) <| p.names_window e

/-! ## Judging an envelope -/

/-- What a report says: one issue for every field that is defective and none for any other, in the
order of the fields. -/
structure Reports (p : EnvelopePolicy) (e : SubmittedEnvelope) (r : EnvelopeReport) : Prop where
  nonempty : r.issues ≠ []
  exact : ∀ f, f ∈ r.issues.map EnvelopeIssue.field ↔ e.Defective p f
  once : (r.issues.map EnvelopeIssue.field).Nodup
  inOrder : (r.issues.map EnvelopeIssue.field).Sublist EnvelopeField.inOrder

/-- What an envelope that was accepted holds. -/
structure Settles (p : EnvelopePolicy) (envelope : Envelope) : Prop where
  window : envelope.displayFrom ≤ envelope.displayTo
  provenance : Text.trim envelope.provenance = envelope.provenance ∧ envelope.provenance ≠ ""
  location : Text.trim envelope.location = envelope.location ∧ envelope.location ≠ ""
  sourceId : ∀ id, envelope.sourceId = some id → Text.trim id = id ∧ id ≠ ""
  required : p.sourceIds = .required → envelope.sourceId ≠ none

theorem settles_of_accept {envelope : Envelope} (h : p.accept e = .ok envelope) :
    Settles p envelope := by
  obtain ⟨hprovenance, hlocation, hsource, -, -, -, -, -, hwindow⟩ := accept_eq_ok_iff.mp h
  obtain ⟨hsourceId, hrequired⟩ := trimmed_of_sourceId hsource
  exact ⟨le_of_window hwindow, trimmed_of_nonBlank hprovenance, trimmed_of_nonBlank hlocation,
    hsourceId, hrequired⟩

/-- Every field can be named. -/
theorem mem_inOrder (f : EnvelopeField) : f ∈ EnvelopeField.inOrder := by
  cases f <;> decide

theorem reports_issues (h : p.issues e ≠ []) : Reports p e ⟨p.issues e⟩ where
  nonempty := h
  exact f := ((p.names_issues e).exact f).trans (and_iff_right (mem_inOrder f))
  once := (p.names_issues e).inOrder.nodup (by decide)
  inOrder := (p.names_issues e).inOrder

/-- An envelope is accepted exactly if no field is defective. Otherwise the report names every
field that is, each once and in order, and no other. A field other than the end of display is
defective by what it holds alone. -/
theorem an_envelope_is_refused_for_its_defects (p : EnvelopePolicy) (e : SubmittedEnvelope) :
    ((∃ envelope, p.accept e = .ok envelope) ↔ ∀ f, ¬ e.Defective p f) ∧
    (∀ r, p.accept e = .error r → Reports p e r) ∧
    (∀ p' e' f, f ≠ .displayTo → (f = .sourceId → p'.sourceIds = p.sourceIds) → e.Agree e' f →
      (e'.Defective p' f ↔ e.Defective p f)) ∧
    ∀ envelope, p.accept e = .ok envelope → Settles p envelope := by
  refine ⟨?_, ?_,
    fun p' e' f hend hmode hsame => SubmittedEnvelope.defective_congr hend hmode hsame,
    fun envelope haccept => settles_of_accept haccept⟩
  · rcases p.accept_cases e with ⟨envelope, haccept, hnone⟩ | ⟨hrefused, hsome⟩
    · refine ⟨fun _ f hdefect => ?_, fun _ => ⟨envelope, haccept⟩⟩
      have hnamed := ((p.names_issues e).exact f).mpr ⟨mem_inOrder f, hdefect⟩
      rw [hnone] at hnamed
      cases hnamed
    · refine ⟨fun ⟨envelope, haccept⟩ => ?_, fun hsound => ?_⟩
      · rw [hrefused] at haccept
        cases haccept
      · obtain ⟨issue, hissue⟩ := List.exists_mem_of_ne_nil _ hsome
        exact absurd (((reports_issues hsome).exact _).mp (List.mem_map_of_mem hissue)) (hsound _)
  · intro r hr
    rcases p.accept_cases e with ⟨envelope, haccept, -⟩ | ⟨hrefused, hsome⟩
    · rw [haccept] at hr
      cases hr
    · obtain rfl := Except.error.inj (hrefused.symm.trans hr)
      exact reports_issues hsome

/-! An envelope from nowhere and of no kind, that is to be displayed for longer than there are
days. -/

namespace Example

/-- As many days as a word of 64 bits can count. -/
def policy : EnvelopePolicy := ⟨.required, 9223372036854775807⟩

def submitted : SubmittedEnvelope where
  provenance := some " "
  sourceId := some "id1"
  artefactType := none
  sensitivity := some "public"
  language := some "Welsh"
  displayFrom := some .epoch
  displayTo := none
  listType := some "daily_list"
  location := some "123"
  contentDate := some .epoch

def report : EnvelopeReport :=
  ⟨[⟨.provenance, .blank⟩, ⟨.artefactType, .missing⟩,
    ⟨.displayTo, .endOutOfRange .epoch 9223372036854775807⟩]⟩

end Example

theorem three_defects_have_three_issues :
    Example.policy.accept Example.submitted = .error Example.report ∧
      Reports Example.policy Example.submitted Example.report ∧
      Example.submitted.Defective Example.policy .displayTo := by
  have hrefused : Example.policy.accept Example.submitted = .error Example.report := rfl
  have hreports : Reports Example.policy Example.submitted Example.report :=
    (an_envelope_is_refused_for_its_defects Example.policy Example.submitted).2.1 _ hrefused
  exact ⟨hrefused, hreports, (hreports.exact .displayTo).mp (by decide)⟩

end EnvelopePolicy

end CauseLists
