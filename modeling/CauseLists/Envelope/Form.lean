-- Envelopes and identity keys as documents, written and read.
import CauseLists.Envelope.Basic

namespace CauseLists

/-- Reads an instant with any offset. -/
def Instant.read (json : Json) : Except FormError Instant := do
  let text ← json.asText
  match Instant.parse text with
  | .ok t => .ok t
  | .error e => .error (.rejected e.message)

/-- Reads a list type in any case. -/
def ListType.read (json : Json) : Except FormError ListType := do
  let text ← json.asText
  match ListType.parse text with
  | .ok t => .ok t
  | .error e => .error (.rejected e.message)

/-! ## Submitted envelopes -/

/-- The fields of a submitted envelope in order, under the names that providers use. Any of them
may be missing. -/
def SubmittedEnvelope.form : RecordForm :=
  let text (name : String) : FormField := .ofReader name (Json.asOption Json.asText) true
  let instant (name : String) : FormField := .ofReader name (Json.asOption Instant.read) true
  ⟨"struct HeaderGroup",
    [text "provenance", text "sourceArtefactId", text "type", text "sensitivity", text "language",
      instant "displayFrom", instant "displayTo", text "listType", text "locationId",
      instant "contentDate"]⟩

/-- Reads a submitted envelope. -/
def SubmittedEnvelope.read (json : Json) : Except FormError SubmittedEnvelope := do
  let members ← form.members json
  let text (name : String) := optionalMember members name Json.asText
  let instant (name : String) := optionalMember members name Instant.read
  return {
    provenance := ← text "provenance"
    sourceId := ← text "sourceArtefactId"
    artefactType := ← text "type"
    sensitivity := ← text "sensitivity"
    language := ← text "language"
    displayFrom := ← instant "displayFrom"
    displayTo := ← instant "displayTo"
    listType := ← text "listType"
    location := ← text "locationId"
    contentDate := ← instant "contentDate" }

/-! ## Accepted envelopes -/

/-- The fields of an envelope in order. -/
def Envelope.form : RecordForm :=
  let text (name : String) : FormField := .ofReader name Json.asText false
  let instant (name : String) : FormField := .ofReader name Instant.read false
  ⟨"struct ValidatedHeader",
    [text "provenance", .ofReader "source_artefact_id" (Json.asOption Json.asText) false,
      .ofReader "artefact_type" ArtefactType.vocabulary.read false,
      .ofReader "sensitivity" Sensitivity.vocabulary.read false,
      .ofReader "language" Language.vocabulary.read false,
      instant "display_from", instant "display_to", .ofReader "list_type" ListType.read false,
      text "location_id", instant "content_date"]⟩

/-- Reads an envelope. -/
def Envelope.read (json : Json) : Except FormError Envelope := do
  let members ← form.members json
  return {
    provenance := ← requiredMember members "provenance" Json.asText
    sourceId := ← optionalMember members "source_artefact_id" Json.asText
    artefactType := ← requiredMember members "artefact_type" ArtefactType.vocabulary.read
    sensitivity := ← requiredMember members "sensitivity" Sensitivity.vocabulary.read
    language := ← requiredMember members "language" Language.vocabulary.read
    displayFrom := ← requiredMember members "display_from" Instant.read
    displayTo := ← requiredMember members "display_to" Instant.read
    listType := ← requiredMember members "list_type" ListType.read
    location := ← requiredMember members "location_id" Json.asText
    contentDate := ← requiredMember members "content_date" Instant.read }

/-- An envelope as a document. -/
def Envelope.toJson (e : Envelope) : Json := .ofMembers [
  ("provenance", .string e.provenance),
  ("source_artefact_id", .ofOption .string e.sourceId),
  ("artefact_type", .string e.artefactType.word),
  ("sensitivity", .string e.sensitivity.word),
  ("language", .string e.language.word),
  ("display_from", .string e.displayFrom.text),
  ("display_to", .string e.displayTo.text),
  ("list_type", .string e.listType.name),
  ("location_id", .string e.location),
  ("content_date", .string e.contentDate.text)]

/-! ## Identity keys -/

namespace IdentityKey

/-- The fields of a key by the provider's identifier. -/
def sourcedForm : RecordForm :=
  let text (name : String) : FormField := .ofReader name Json.asText false
  ⟨"struct variant IdentityKey::Sourced",
    [text "provenance", text "source_artefact_id", .ofReader "list_type" ListType.read false,
      text "location_id"]⟩

/-- The fields of a key by content. -/
def contentBasedForm : RecordForm :=
  let text (name : String) : FormField := .ofReader name Json.asText false
  ⟨"struct variant IdentityKey::ContentBased",
    [text "provenance", .ofReader "list_type" ListType.read false, text "location_id",
      .ofReader "content_date" Instant.read false,
      .ofReader "language" Language.vocabulary.read false]⟩

/-- Reads the fields of a key by the provider's identifier. -/
def readSourced (json : Json) : Except FormError IdentityKey := do
  let members ← sourcedForm.members json
  return .sourced (← requiredMember members "provenance" Json.asText)
    (← requiredMember members "source_artefact_id" Json.asText)
    (← requiredMember members "list_type" ListType.read)
    (← requiredMember members "location_id" Json.asText)

/-- Reads the fields of a key by content. -/
def readContentBased (json : Json) : Except FormError IdentityKey := do
  let members ← contentBasedForm.members json
  return .contentBased (← requiredMember members "provenance" Json.asText)
    (← requiredMember members "list_type" ListType.read)
    (← requiredMember members "location_id" Json.asText)
    (← requiredMember members "content_date" Instant.read)
    (← requiredMember members "language" Language.vocabulary.read)

/-- Reads the word that tells the two kinds of key apart. -/
def readKind : Json → Except FormError (Json → Except FormError IdentityKey)
  | .string word =>
    if word = "sourced" then .ok readSourced
    else if word = "content_based" then .ok readContentBased
    else .error (.unknownWord word ["sourced", "content_based"])
  | json => .error (.unexpected json.found "variant identifier")

/-- Reads a key: its kind, and then the fields of that kind. -/
def read : Json → Except FormError IdentityKey
  | .object members => do
    let fields ← requiredMember members "kind" readKind
    fields (.object (members.filter (fun m => m.1 != "kind")))
  | .array [] => .error (.missing "kind")
  | .array (kind :: row) => do
    let fields ← readKind kind
    fields (.array row)
  | json => .error (.unexpected json.found "internally tagged enum IdentityKey")

/-- A key as a document. -/
def toJson : IdentityKey → Json
  | .sourced provenance sourceId listType location => .ofMembers [
    ("kind", .string "sourced"), ("provenance", .string provenance),
    ("source_artefact_id", .string sourceId), ("list_type", .string listType.name),
    ("location_id", .string location)]
  | .contentBased provenance listType location contentDate language => .ofMembers [
    ("kind", .string "content_based"), ("provenance", .string provenance),
    ("list_type", .string listType.name), ("location_id", .string location),
    ("content_date", .string contentDate.text), ("language", .string language.word)]

end IdentityKey

end CauseLists
