-- The closed vocabularies of an envelope: what kind of publication it carries, who may see it and
-- in which language it is written. Providers write the words in any case and with blanks around
-- them; documents written here hold them in capitals.
import CauseLists.Json.Form
import CauseLists.Text.Blank

namespace CauseLists

/-- A closed row of values with a word for each. -/
structure Vocabulary (α : Type) where
  /-- What one of its words is called in an error. -/
  noun : String
  values : List α
  word : α → String

/-- A text that is no word of a vocabulary. -/
structure UnknownWord where
  noun : String
  value : String
deriving DecidableEq, Repr, Inhabited

def UnknownWord.message (e : UnknownWord) : String :=
  "invalid " ++ e.noun ++ ": \"" ++ e.value ++ "\""

namespace Vocabulary

variable {α : Type}

/-- The value that a text names, whatever the case of its letters and the blanks around it. -/
def parse (v : Vocabulary α) (text : String) : Except UnknownWord α :=
  match v.values.find? (fun a => Text.sameIgnoringCase (v.word a) (Text.trim text)) with
  | some a => .ok a
  | none => .error ⟨v.noun, text⟩

/-- The value that a document names by its exact word. -/
def read (v : Vocabulary α) : Json → Except FormError α :=
  Json.asWord (v.values.map (fun a => (v.word a, a)))

end Vocabulary

/-- What kind of publication an envelope carries. -/
inductive ArtefactType
  | list | judgementsAndOutcomes | generalPublication | lcsu
deriving DecidableEq, Repr, Inhabited

def ArtefactType.word : ArtefactType → String
  | .list => "LIST"
  | .judgementsAndOutcomes => "JUDGEMENTS_AND_OUTCOMES"
  | .generalPublication => "GENERAL_PUBLICATION"
  | .lcsu => "LCSU"

def ArtefactType.vocabulary : Vocabulary ArtefactType :=
  ⟨"artefact type", [.list, .judgementsAndOutcomes, .generalPublication, .lcsu], word⟩

/-- Who may see a publication. -/
inductive Sensitivity
  | anyone | verified | entitled
deriving DecidableEq, Repr, Inhabited

def Sensitivity.word : Sensitivity → String
  | .anyone => "PUBLIC"
  | .verified => "PRIVATE"
  | .entitled => "CLASSIFIED"

def Sensitivity.vocabulary : Vocabulary Sensitivity :=
  ⟨"sensitivity", [.anyone, .verified, .entitled], word⟩

/-- The language of a publication. -/
inductive Language
  | english | welsh | bilingual
deriving DecidableEq, Repr, Inhabited

def Language.word : Language → String
  | .english => "ENGLISH"
  | .welsh => "WELSH"
  | .bilingual => "BI_LINGUAL"

def Language.vocabulary : Vocabulary Language :=
  ⟨"language", [.english, .welsh, .bilingual], word⟩

/-- Whether a submission has to carry the provider's own identifier. -/
inductive SourceIdMode
  | required | optional
deriving DecidableEq, Repr, Inhabited

def SourceIdMode.word : SourceIdMode → String
  | .required => "required"
  | .optional => "optional"

def SourceIdMode.vocabulary : Vocabulary SourceIdMode :=
  ⟨"source id mode", [.required, .optional], word⟩

end CauseLists
