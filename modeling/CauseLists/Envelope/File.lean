-- Submitted envelopes in files.
import CauseLists.Envelope.Basic
import CauseLists.Libraries

namespace CauseLists

/-- The instant that a text in a file writes, with any offset. -/
def Instant.ofNode? (n : Node) : Option Instant :=
  n.text?.bind (fun text => (Instant.parse text).toOption)

namespace SubmittedEnvelope

/-- The names of the fields in files, in order. -/
def fieldNames : List String :=
  ["provenance", "sourceArtefactId", "type", "sensitivity", "language", "displayFrom",
    "displayTo", "listType", "locationId", "contentDate"]

/-- Reads a submitted envelope. A field may be null or not there at all. -/
def ofNode? (n : Node) : Option SubmittedEnvelope := do
  let fields ← n.fields? fieldNames false
  let text (name : String) : Option (Option String) :=
    Node.fieldOr fields name none (Node.optional? Node.text?)
  let instant (name : String) : Option (Option Instant) :=
    Node.fieldOr fields name none (Node.optional? Instant.ofNode?)
  return {
    provenance := ← text "provenance"
    sourceId := ← text "sourceArtefactId"
    artefactType := ← text "type"
    sensitivity := ← text "sensitivity"
    language := ← text "language"
    displayFrom := ← instant "displayFrom"
    displayTo := ← instant "displayTo"
    listType := ← text "listType"
    location := ← text "locationId"
    contentDate := ← instant "contentDate" }

/-- Reads the text of an envelope file. -/
def parse? (l : Libraries) (text : String) : Option SubmittedEnvelope :=
  (l.node? .yaml text).bind ofNode?

end SubmittedEnvelope

end CauseLists
