-- The canonical form of an envelope. An envelope that was accepted can be submitted as it is, and
-- is accepted as it is. So is every envelope that differs from the one submitted in white space and
-- in the case of its words only, and therefore all of them join one chain.
import CauseLists.Proofs.Envelope.Defects

namespace CauseLists

/-- An envelope in canonical form as it would be submitted: its words are those of the
vocabularies, and both ends of its display are given. -/
def Envelope.submitted (v : Envelope) : SubmittedEnvelope where
  provenance := some v.provenance
  sourceId := v.sourceId
  artefactType := some v.artefactType.word
  sensitivity := some v.sensitivity.word
  language := some v.language.word
  displayFrom := some v.displayFrom
  displayTo := some v.displayTo
  listType := some v.listType.name
  location := some v.location
  contentDate := some v.contentDate

/-- Two envelopes differ in the white space around their texts, and in the case of the words among
them, and in nothing else. -/
structure SubmittedEnvelope.Variant (e e' : SubmittedEnvelope) : Prop where
  provenance : Option.Rel Text.SameButBlanks e.provenance e'.provenance
  sourceId : Option.Rel Text.SameButBlanks e.sourceId e'.sourceId
  artefactType : Option.Rel Text.SameButCase e.artefactType e'.artefactType
  sensitivity : Option.Rel Text.SameButCase e.sensitivity e'.sensitivity
  language : Option.Rel Text.SameButCase e.language e'.language
  displayFrom : e'.displayFrom = e.displayFrom
  displayTo : e'.displayTo = e.displayTo
  listType : Option.Rel Text.SameButCase e.listType e'.listType
  location : Option.Rel Text.SameButBlanks e.location e'.location
  contentDate : e'.contentDate = e.contentDate

namespace EnvelopePolicy

/-! ## Fields in canonical form -/

theorem nonBlank_canonical (field : EnvelopeField) {text : String}
    (h : Text.trim text = text ∧ text ≠ "") : nonBlank field (some text) = .ok text :=
  nonBlank_eq_ok_iff.mpr ⟨text, rfl, h.1, h.2⟩

theorem sourceId_canonical {p : EnvelopePolicy} {id : Option String}
    (htrimmed : ∀ text, id = some text → Text.trim text = text ∧ text ≠ "")
    (hrequired : p.sourceIds = .required → id ≠ none) : p.sourceId id = .ok id := by
  unfold sourceId
  cases hmode : p.sourceIds with
  | required =>
    cases id with
    | none => exact absurd rfl (hrequired hmode)
    | some text =>
      dsimp only
      rw [nonBlank_canonical _ (htrimmed text rfl)]
      rfl
  | optional =>
    cases id with
    | none => rfl
    | some text =>
      obtain ⟨htrim, hne⟩ := htrimmed text rfl
      simp [maybeBlank, htrim, hne]

theorem word_canonical {α : Type} {v : Vocabulary α} (hv : v.Faithful) (field : EnvelopeField)
    (a : α) : word field v (some (v.word a)) = .ok a :=
  word_eq_ok_iff.mpr ⟨_, rfl, hv.reads a⟩

theorem listType_canonical (t : ListType) : listType (some t.name) = .ok t :=
  listType_eq_ok_iff.mpr ⟨_, rfl, t.parse_name⟩

theorem window_canonical (p : EnvelopePolicy) {start ending : Instant} (h : start ≤ ending) :
    p.window (some start) (some ending) = .ok (start, ending) :=
  if_neg (Instant.not_lt_of_le h)

/-! ## Fields that differ in little -/

theorem nonBlank_congr (field : EnvelopeField) {text text' : Option String}
    (h : Option.Rel Text.SameButBlanks text text') :
    nonBlank field text' = nonBlank field text := by
  cases h with
  | none => rfl
  | some h => simp only [nonBlank, h.trim_eq]

theorem sourceId_congr (p : EnvelopePolicy) {text text' : Option String}
    (h : Option.Rel Text.SameButBlanks text text') : p.sourceId text' = p.sourceId text := by
  unfold sourceId
  rw [nonBlank_congr .sourceId h]
  have hmaybe : maybeBlank text' = maybeBlank text := by
    cases h with
    | none => rfl
    | some h => simp only [maybeBlank, Option.map_some, h.trim_eq]
  rw [hmaybe]

/-- A text in another case names the same value, though what is said of a text that names none
holds the text itself. -/
theorem word_congr {α : Type} {v : Vocabulary α} (hv : v.Faithful) {field : EnvelopeField}
    {text text' : Option String} (h : Option.Rel Text.SameButCase text text') {a : α}
    (hok : word field v text = .ok a) : word field v text' = .ok a := by
  obtain ⟨raw, rfl, hparse⟩ := word_eq_ok_iff.mp hok
  cases h with
  | @some _ raw' h =>
    refine word_eq_ok_iff.mpr ⟨raw', rfl, ?_⟩
    rw [hv.parse_eq_ok_iff, ← h.upperAscii_trim_eq]
    exact (hv.parse_eq_ok_iff raw a).mp hparse

theorem listType_congr {text text' : Option String} (h : Option.Rel Text.SameButCase text text')
    {t : ListType} (hok : listType text = .ok t) : listType text' = .ok t := by
  obtain ⟨raw, rfl, hparse⟩ := listType_eq_ok_iff.mp hok
  cases h with
  | @some _ raw' h =>
    refine listType_eq_ok_iff.mpr ⟨raw', rfl, ?_⟩
    rw [ListType.parse_eq_ok_iff, ← h.upperAscii_trim_eq]
    exact (ListType.parse_eq_ok_iff raw t).mp hparse

/-! ## Whole envelopes -/

variable {p : EnvelopePolicy} {e : SubmittedEnvelope} {v : Envelope}

theorem accept_submitted (h : p.accept e = .ok v) : p.accept v.submitted = .ok v := by
  obtain ⟨hwindow, hprovenance, hlocation, hsourceId, hrequired⟩ := settles_of_accept h
  exact accept_eq_ok_iff.mpr ⟨nonBlank_canonical _ hprovenance, nonBlank_canonical _ hlocation,
    sourceId_canonical hsourceId hrequired, word_canonical ArtefactType.faithful _ _,
    word_canonical Sensitivity.faithful _ _, word_canonical Language.faithful _ _, rfl,
    listType_canonical _, window_canonical p hwindow⟩

theorem accept_variant {e' : SubmittedEnvelope} (hvariant : e.Variant e')
    (h : p.accept e = .ok v) : p.accept e' = .ok v := by
  obtain ⟨hprovenance, hlocation, hsource, htype, hsensitivity, hlanguage, hdate, hlist, hwindow⟩ :=
    accept_eq_ok_iff.mp h
  refine accept_eq_ok_iff.mpr ⟨?_, ?_, ?_,
    word_congr ArtefactType.faithful hvariant.artefactType htype,
    word_congr Sensitivity.faithful hvariant.sensitivity hsensitivity,
    word_congr Language.faithful hvariant.language hlanguage, ?_,
    listType_congr hvariant.listType hlist, ?_⟩
  · rw [nonBlank_congr _ hvariant.provenance, hprovenance]
  · rw [nonBlank_congr _ hvariant.location, hlocation]
  · rw [sourceId_congr p hvariant.sourceId, hsource]
  · rw [hvariant.contentDate, hdate]
  · rw [hvariant.displayFrom, hvariant.displayTo, hwindow]

/-- What an envelope is accepted as is accepted as itself, and so is every envelope that differs
from the first in white space and the case of words only. All of them join the same chain. -/
theorem what_was_accepted_is_accepted_as_it_is (h : p.accept e = .ok v) :
    p.accept v.submitted = .ok v ∧
    ∀ e', e.Variant e' → p.accept e' = .ok v ∧ (p.accept e').map Envelope.key = .ok v.key := by
  refine ⟨accept_submitted h, fun e' hvariant => ?_⟩
  have hsame := accept_variant hvariant h
  exact ⟨hsame, by rw [hsame]; rfl⟩

/-! A manual upload that is written carelessly, and written so once more. -/

namespace Example

/-- Identifiers may be left out, and a publication is displayed for three days. -/
def lenient : EnvelopePolicy := ⟨.optional, 3⟩

def careless (provenance sourceId artefactType listType : String) : SubmittedEnvelope where
  provenance := some provenance
  sourceId := some sourceId
  artefactType := some artefactType
  sensitivity := some "public"
  language := some "Welsh"
  displayFrom := some .epoch
  displayTo := none
  listType := some listType
  location := some "123"
  contentDate := some .epoch

def first : SubmittedEnvelope := careless "  MANUAL_UPLOAD" " " "List" " daily_list\n"

def second : SubmittedEnvelope := careless "MANUAL_UPLOAD " "" " lIST" "Daily_List"

def settled : Envelope where
  provenance := "MANUAL_UPLOAD"
  sourceId := none
  artefactType := .list
  sensitivity := .anyone
  language := .welsh
  displayFrom := .epoch
  displayTo := (Instant.ofSeconds? 259200).getD .epoch
  listType := ⟨"DAILY_LIST", ListType.isCanonical_daily⟩
  location := "123"
  contentDate := .epoch

theorem surrounds_self (s : String) : Text.Surrounds s s := ⟨"", "", by simp, rfl, rfl⟩

theorem variant : first.Variant second where
  provenance := .some ⟨"MANUAL_UPLOAD", ⟨"  ", "", rfl, rfl, rfl⟩, ⟨"", " ", rfl, rfl, rfl⟩⟩
  sourceId := .some ⟨"", ⟨" ", "", rfl, rfl, rfl⟩, surrounds_self ""⟩
  artefactType := .some ⟨"List", "lIST", surrounds_self _, ⟨" ", "", rfl, rfl, rfl⟩, rfl⟩
  sensitivity := .some ⟨_, _, surrounds_self _, surrounds_self _, rfl⟩
  language := .some ⟨_, _, surrounds_self _, surrounds_self _, rfl⟩
  displayFrom := rfl
  displayTo := rfl
  listType := .some ⟨"daily_list", "Daily_List", ⟨" ", "\n", rfl, rfl, rfl⟩, surrounds_self _, rfl⟩
  location := .some ⟨_, surrounds_self _, surrounds_self _⟩
  contentDate := rfl

end Example

theorem a_careless_upload_joins_the_same_chain :
    Example.lenient.accept Example.first = .ok Example.settled ∧
      Example.lenient.accept Example.settled.submitted = .ok Example.settled ∧
      Example.first.Variant Example.second ∧
      (Example.lenient.accept Example.second).map Envelope.key = .ok Example.settled.key := by
  have haccept : Example.lenient.accept Example.first = .ok Example.settled := rfl
  obtain ⟨hitself, hvariants⟩ :
      Example.lenient.accept Example.settled.submitted = .ok Example.settled ∧
        ∀ e', Example.first.Variant e' → Example.lenient.accept e' = .ok Example.settled ∧
          (Example.lenient.accept e').map Envelope.key = .ok Example.settled.key :=
    what_was_accepted_is_accepted_as_it_is haccept
  exact ⟨haccept, hitself, Example.variant, (hvariants _ Example.variant).2⟩

end EnvelopePolicy

end CauseLists
