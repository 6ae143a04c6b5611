-- Accepting an envelope. Each field has a verdict of its own, and the report holds the issue of
-- every field that has one, so that a provider can mend an envelope in one go.
import CauseLists.Envelope.Basic

namespace CauseLists

/-- The fields of an envelope that an issue can name. -/
inductive EnvelopeField
  | provenance | location | sourceId | artefactType | sensitivity | language | contentDate
  | listType | displayFrom | displayTo
deriving DecidableEq, Repr, Inhabited

/-- The name that providers know a field by. -/
def EnvelopeField.name : EnvelopeField → String
  | .provenance => "provenance"
  | .location => "locationId"
  | .sourceId => "sourceArtefactId"
  | .artefactType => "type"
  | .sensitivity => "sensitivity"
  | .language => "language"
  | .contentDate => "contentDate"
  | .listType => "listType"
  | .displayFrom => "displayFrom"
  | .displayTo => "displayTo"

/-- What is wrong with a field. -/
inductive EnvelopeDefect
  | missing
  | blank
  | unknownWord (error : UnknownWord)
  | malformedListType (error : ListTypeError)
  /-- So many days after the start of display lie outside the calendar. -/
  | endOutOfRange (start : Instant) (days : Int)
  | endsBeforeStart (ending start : Instant)
deriving DecidableEq, Repr, Inhabited

/-- So many days from an instant lead out of the calendar. -/
def outOfRangeText (base : Instant) (days : Int) : String :=
  toString days ++ " day(s) from " ++ base.text ++ " is out of range"

def EnvelopeDefect.message : EnvelopeDefect → String
  | .missing => "is missing"
  | .blank => "must not be blank"
  | .unknownWord e => e.message
  | .malformedListType e => e.message
  | .endOutOfRange start days => outOfRangeText start days
  | .endsBeforeStart ending start =>
    ending.text ++ " is before displayFrom " ++ start.text

/-- A field and what is wrong with it. -/
structure EnvelopeIssue where
  field : EnvelopeField
  defect : EnvelopeDefect
deriving DecidableEq, Repr, Inhabited

/-- The issues of an envelope in the order of its fields. -/
structure EnvelopeReport where
  issues : List EnvelopeIssue
deriving DecidableEq, Repr, Inhabited

namespace EnvelopeReport

def message (r : EnvelopeReport) : String :=
  "envelope failed validation with " ++ toString r.issues.length ++ " issue(s):" ++
    String.join (r.issues.map (fun i => "\n  - " ++ i.field.name ++ ": " ++ i.defect.message))

/-- A field is among those with an issue. -/
def mentions (r : EnvelopeReport) (name : String) : Bool :=
  r.issues.any (fun i => i.field.name == name)

end EnvelopeReport

/-- What an envelope has to carry, and how long it is displayed if it does not say. -/
structure EnvelopePolicy where
  sourceIds : SourceIdMode
  defaultDays : Int
deriving DecidableEq, Repr

namespace EnvelopePolicy

/-- Identifiers are required, and a publication is displayed for one day. -/
def standard : EnvelopePolicy := ⟨.required, 1⟩

/-! ## Verdicts on single fields -/

/-- A field that has to be there. -/
def present {α : Type} (field : EnvelopeField) : Option α → Except EnvelopeIssue α
  | some a => .ok a
  | none => .error ⟨field, .missing⟩

/-- A text that has to be there and to hold more than white space. -/
def nonBlank (field : EnvelopeField) : Option String → Except EnvelopeIssue String
  | none => .error ⟨field, .missing⟩
  | some text => if Text.trim text = "" then .error ⟨field, .blank⟩ else .ok (Text.trim text)

/-- A text that may be left out; white space alone leaves it out. -/
def maybeBlank (text : Option String) : Option String :=
  (text.map Text.trim).filter (fun t => t != "")

/-- A word of a vocabulary. -/
def word {α : Type} (field : EnvelopeField) (v : Vocabulary α) :
    Option String → Except EnvelopeIssue α
  | none => .error ⟨field, .missing⟩
  | some text =>
    match v.parse text with
    | .ok a => .ok a
    | .error e => .error ⟨field, .unknownWord e⟩

/-- A list type. -/
def listType : Option String → Except EnvelopeIssue ListType
  | none => .error ⟨.listType, .missing⟩
  | some text =>
    match ListType.parse text with
    | .ok t => .ok t
    | .error e => .error ⟨.listType, .malformedListType e⟩

/-- The provider's identifier, required or not. -/
def sourceId (p : EnvelopePolicy) (text : Option String) :
    Except EnvelopeIssue (Option String) :=
  match p.sourceIds with
  | .required => (nonBlank .sourceId text).map some
  | .optional => .ok (maybeBlank text)

/-- The display window. Its end is judged only once its start is known. -/
def window (p : EnvelopePolicy) (start ending : Option Instant) :
    Except EnvelopeIssue (Instant × Instant) :=
  match start, ending with
  | none, _ => .error ⟨.displayFrom, .missing⟩
  | some start, some ending =>
    if ending < start then .error ⟨.displayTo, .endsBeforeStart ending start⟩
    else .ok (start, ending)
  | some start, none =>
    match start.plusDays p.defaultDays with
    | .error e => .error ⟨.displayTo, .endOutOfRange e.base e.days⟩
    | .ok ending =>
      if ending < start then .error ⟨.displayTo, .endsBeforeStart ending start⟩
      else .ok (start, ending)

/-! ## The whole envelope -/

/-- The issue of a verdict, if it has one. -/
def issueOf {α : Type} : Except EnvelopeIssue α → Option EnvelopeIssue
  | .ok _ => none
  | .error issue => some issue

/-- The envelope in canonical form, or every issue that it has. -/
def accept (p : EnvelopePolicy) (e : SubmittedEnvelope) : Except EnvelopeReport Envelope :=
  let provenance := nonBlank .provenance e.provenance
  let location := nonBlank .location e.location
  let sourceId := p.sourceId e.sourceId
  let artefactType := word .artefactType ArtefactType.vocabulary e.artefactType
  let sensitivity := word .sensitivity Sensitivity.vocabulary e.sensitivity
  let language := word .language Language.vocabulary e.language
  let contentDate := present .contentDate e.contentDate
  let listType := listType e.listType
  let window := p.window e.displayFrom e.displayTo
  match provenance, location, sourceId, artefactType, sensitivity, language, contentDate, listType,
    window with
  | .ok provenance, .ok location, .ok sourceId, .ok artefactType, .ok sensitivity, .ok language,
    .ok contentDate, .ok listType, .ok (displayFrom, displayTo) =>
    .ok { provenance, sourceId, artefactType, sensitivity, language, displayFrom, displayTo,
          listType, location, contentDate }
  | _, _, _, _, _, _, _, _, _ =>
    .error ⟨[issueOf provenance, issueOf location, issueOf sourceId, issueOf artefactType,
      issueOf sensitivity, issueOf language, issueOf contentDate, issueOf listType,
      issueOf window].filterMap id⟩

end EnvelopePolicy

end CauseLists
