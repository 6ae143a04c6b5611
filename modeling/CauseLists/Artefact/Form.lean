-- Artefacts as documents, written and read back.
import CauseLists.Artefact.Basic
import CauseLists.Envelope.Form

namespace CauseLists

/-! ## Writing -/

/-- A digest with the name of its algorithm and its bytes. -/
def Digest.toJson (d : Digest) : Json := .ofMembers [
  ("algorithm", .string "Sha256"),
  ("bytes", .array (d.bytes.map (fun b => .ofInt b.toNat)))]

def StoredBody.toJson (b : StoredBody) : Json := .ofMembers [
  ("location", .string b.location), ("digest", b.digest.toJson), ("size_bytes", .ofInt b.size)]

def Transition.toJson (t : Transition) : Json := .ofMembers [
  ("from_state", .string t.before.name), ("to_state", .string t.after.name),
  ("timestamp", .string t.time.text), ("reason", .string t.reason)]

def ArtefactId.toJson (id : ArtefactId) : Json := .string id.text

def Artefact.toJson (a : Artefact) : Json := .ofMembers [
  ("artefact_id", a.id.toJson), ("header", a.envelope.toJson), ("payload", a.body.toJson),
  ("effective_from", .string a.effectiveFrom.text), ("effective_to", .string a.effectiveTo.text),
  ("state", .string a.state.name), ("superseded_by", .ofOption ArtefactId.toJson a.supersededBy),
  ("supersedes", .ofOption ArtefactId.toJson a.supersedes),
  ("commit_sequence", .ofInt a.sequence), ("received_at", .string a.receivedAt.text),
  ("transitions", .array (a.transitions.map Transition.toJson))]

/-! ## Reading -/

namespace Json

/-- Reads a number from 0 to a bound. -/
def asNatural (limit : Nat) : Json → Except FormError Nat
  | .number (.whole i) =>
    if 0 ≤ i ∧ i ≤ limit then .ok i.toNat else .error (.rejected "number out of range")
  | json => .error (.unexpected json.found "a natural number")

/-- Reads every item of an array. -/
def asList {α : Type} (read : Json → Except FormError α) : Json → Except FormError (List α)
  | .array items => items.mapM read
  | json => .error (.unexpected json.found "a sequence")

/-- The members of an object. -/
def asMembers (title : String) : Json → Except FormError (List (String × Json))
  | .object members => .ok members
  | json => .error (.unexpected json.found title)

end Json

def ArtefactId.read (json : Json) : Except FormError ArtefactId := do
  let text ← json.asText
  match ArtefactId.parse? text with
  | some id => .ok id
  | none => .error (.rejected "not an identifier")

def ArtefactState.read : Json → Except FormError ArtefactState :=
  Json.asWord ([.current, .superseded, .expired].map (fun s => (s.name, s)))

def Digest.read (json : Json) : Except FormError Digest := do
  let members ← json.asMembers "struct ContentDigest"
  let _ ← requiredMember members "algorithm" (Json.asWord [("Sha256", ())])
  let bytes ← requiredMember members "bytes" (Json.asList (Json.asNatural 255))
  return ⟨bytes.map UInt8.ofNat⟩

def StoredBody.read (json : Json) : Except FormError StoredBody := do
  let members ← json.asMembers "struct StorageReference"
  return {
    location := ← requiredMember members "location" Json.asText
    digest := ← requiredMember members "digest" Digest.read
    size := ← requiredMember members "size_bytes" (Json.asNatural Text.maxWord64) }

def Transition.read (json : Json) : Except FormError Transition := do
  let members ← json.asMembers "struct TransitionRecord"
  return {
    before := ← requiredMember members "from_state" ArtefactState.read
    after := ← requiredMember members "to_state" ArtefactState.read
    time := ← requiredMember members "timestamp" Instant.read
    reason := ← requiredMember members "reason" Json.asText }

/-- Reads an artefact as it is written. An instant outside the years 0 to 9999 cannot be read
back, so neither can an artefact that holds one. -/
def Artefact.read (json : Json) : Except FormError Artefact := do
  let members ← json.asMembers "struct Artefact"
  return {
    id := ← requiredMember members "artefact_id" ArtefactId.read
    envelope := ← requiredMember members "header" Envelope.read
    body := ← requiredMember members "payload" StoredBody.read
    effectiveFrom := ← requiredMember members "effective_from" Instant.read
    effectiveTo := ← requiredMember members "effective_to" Instant.read
    state := ← requiredMember members "state" ArtefactState.read
    supersededBy := ← optionalMember members "superseded_by" ArtefactId.read
    supersedes := ← optionalMember members "supersedes" ArtefactId.read
    sequence := ← requiredMember members "commit_sequence" (Json.asNatural Text.maxWord64)
    receivedAt := ← requiredMember members "received_at" Instant.read
    transitions := ← requiredMember members "transitions" (Json.asList Transition.read) }

end CauseLists
