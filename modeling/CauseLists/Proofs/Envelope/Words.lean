-- The words of an envelope. Each value of a vocabulary is read from its word, and from no text but
-- that word in any case and with white space around it.
import CauseLists.Envelope.Words
import CauseLists.Proofs.Text.Case

namespace CauseLists

namespace Vocabulary

variable {α : Type}

/-- The words of a vocabulary are written without white space around them, and each is read as the
value that it stands for. -/
structure Faithful (v : Vocabulary α) : Prop where
  trimmed : ∀ a, Text.trim (v.word a) = v.word a
  reads : ∀ a, v.parse (v.word a) = .ok a

theorem parse_eq_ok_iff_find? (v : Vocabulary α) (text : String) (a : α) :
    v.parse text = .ok a ↔
      v.values.find? (fun b => Text.sameIgnoringCase (v.word b) (Text.trim text)) = some a := by
  unfold parse
  split
  · rename_i b hb
    rw [hb, Except.ok.injEq, Option.some.injEq]
  · rename_i hnone
    simp [hnone]

/-- A text names a value exactly if it is its word but for case and white space around it. -/
theorem Faithful.parse_eq_ok_iff {v : Vocabulary α} (h : v.Faithful) (text : String) (a : α) :
    v.parse text = .ok a ↔ Text.upperAscii (v.word a) = Text.upperAscii (Text.trim text) := by
  constructor
  · intro hparse
    have hfound := List.find?_some ((v.parse_eq_ok_iff_find? text a).mp hparse)
    exact (Text.sameIgnoringCase_iff _ _).mp hfound
  · intro hsame
    have hword := (v.parse_eq_ok_iff_find? (v.word a) a).mp (h.reads a)
    rw [h.trimmed] at hword
    rw [parse_eq_ok_iff_find?, ← hword]
    simp only [Text.sameIgnoringCase, hsame]

end Vocabulary

theorem ArtefactType.faithful : ArtefactType.vocabulary.Faithful where
  trimmed a := by cases a <;> rfl
  reads a := by cases a <;> rfl

theorem Sensitivity.faithful : Sensitivity.vocabulary.Faithful where
  trimmed a := by cases a <;> rfl
  reads a := by cases a <;> rfl

theorem Language.faithful : Language.vocabulary.Faithful where
  trimmed a := by cases a <;> rfl
  reads a := by cases a <;> rfl

end CauseLists
