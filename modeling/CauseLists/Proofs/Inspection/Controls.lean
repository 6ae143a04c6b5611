-- Control characters do not count. A document is judged by what is left of it without them, so two
-- documents that are left alike are judged alike; and what is taken out is only what strings say,
-- so every path leads to the same places, and to nodes of the same kinds.
import CauseLists.Inspection.Verdict
import CauseLists.Proofs.FieldPath.Endings
import CauseLists.Proofs.Json.Controls
import CauseLists.Proofs.ListType

namespace CauseLists

namespace RuleSet

/-- Documents that are left alike are found to have the same defects. -/
theorem findings_of_stripped {document document' : Json}
    (h : document.withoutControls = document'.withoutControls) (s : RuleSet) (mode : Mode) :
    s.findings mode document = s.findings mode document' := by
  rw [findings, findings, Json.cleaned_eq_withoutControls, Json.cleaned_eq_withoutControls, h]

theorem check_of_stripped {document document' : Json}
    (h : document.withoutControls = document'.withoutControls) (s : RuleSet) (mode : Mode) :
    s.check mode document = s.check mode document' :=
  congrArg report (findings_of_stripped h s mode)

theorem judge_of_stripped {document document' : Json}
    (h : document.withoutControls = document'.withoutControls) (s : RuleSet) (mode : Mode) :
    s.judge mode document = s.judge mode document' := by
  rw [judge, judge, check_of_stripped h]

/-- Control characters never matter. Documents that are left alike without them get the same report
and the same verdict. What is left of a document is the document but for the control characters of
its strings, whether or not there were any to take out; taking them out again changes nothing; and
every path reaches the same locations before and after, and at each of them a node of the same
kind. -/
theorem control_characters_never_matter :
    (∀ (s : RuleSet) (mode : Mode) (document document' : Json),
      document.withoutControls = document'.withoutControls →
        s.check mode document = s.check mode document' ∧
          s.judge mode document = s.judge mode document') ∧
    ∀ document : Json,
      (∀ left, document.Stripped left ↔ left = document.cleaned) ∧
      document.cleaned = document.withoutControls ∧
      (document.hasControls = false ↔ document.withoutControls = document) ∧
      document.cleaned.cleaned = document.cleaned ∧
      ∀ p : FieldPath, p.locate document.cleaned = p.locate document ∧
        (p.get? document.cleaned).map Json.kind = (p.get? document).map Json.kind := by
  constructor
  · intro s mode document document' h
    exact ⟨check_of_stripped h s mode, judge_of_stripped h s mode⟩
  · intro document
    simp only [Json.cleaned_eq_withoutControls]
    refine ⟨document.stripped_iff, trivial, document.hasControls_eq_false_iff,
      document.withoutControls_withoutControls, ?_⟩
    intro p
    refine ⟨FieldPath.locate_mapStrings _ p document, ?_⟩
    rw [Json.withoutControls, FieldPath.get?_mapStrings, Option.map_map]
    exact congrArg (fun kind => (p.get? document).map kind) (funext (Json.kind_mapStrings _))

/-! A title broken over two lines, which is too long only if the break counts. -/

namespace BrokenTitle

def titles : RuleSet where
  listType := ⟨"DAILY_LIST", ListType.isCanonical_daily⟩
  givenAnchors := []
  baseRules := [⟨[.key "title"], .format (.fixedLength 9)⟩]
  strictRules := []
  schema := none

def broken : Json := .object [("title", .string "Daily\nList")]

def whole : Json := .object [("title", .string "DailyList")]

end BrokenTitle

theorem a_broken_title_is_judged_as_the_whole :
    BrokenTitle.broken.withoutControls = BrokenTitle.whole.withoutControls ∧
      BrokenTitle.titles.judge .strict BrokenTitle.broken =
        BrokenTitle.titles.judge .strict BrokenTitle.whole ∧
      BrokenTitle.titles.check .strict BrokenTitle.broken = [] := by
  have hleft : BrokenTitle.broken.withoutControls = BrokenTitle.whole.withoutControls := by
    simp [BrokenTitle.broken, BrokenTitle.whole, Json.withoutControls, Json.mapStrings,
      Json.mapStringsMembers, Text.withoutControls, Text.isControl]
  obtain ⟨hsame, -⟩ := control_characters_never_matter
  exact ⟨hleft, (hsame BrokenTitle.titles .strict _ _ hleft).2, by decide +kernel⟩

end RuleSet

end CauseLists
