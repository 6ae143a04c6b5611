-- Checking along whole paths. The check goes to an anchor first and from there along the path of a
-- rule, or to a holder first and from there to its member. Going the whole way from the root of the
-- document at once comes to the same endings in the same order, and so to the same findings and to
-- the same report.
import CauseLists.Proofs.FieldPath.Resolution
import CauseLists.Proofs.Inspection.Coverage
import CauseLists.Proofs.Inspection.Passing

namespace CauseLists

namespace FieldPath

/-- To follow two paths joined is to follow the second from every node that the first one finds. -/
theorem resolveFrom_append (p q : FieldPath) (node : Json) (base : FieldPath) :
    (p ++ q).resolveFrom node base = (p.resolveFrom node base).flatMap (Ending.andThen q) := by
  rw [resolveFrom, resolveFrom, walk_append, flatMap_andThen_under]

theorem resolve_append (p q : FieldPath) (document : Json) :
    (p ++ q).resolve document = (p.resolve document).flatMap (Ending.andThen q) :=
  resolveFrom_append p q document []

theorem mem_resolve {p : FieldPath} {document : Json} {e : Ending} :
    e ∈ p.resolve document ↔ e ∈ p.walk document := by
  simp [resolve, resolveFrom]

/-- The nodes that a path finds, with their locations. -/
def hits (p : FieldPath) (node : Json) (base : FieldPath) : List (FieldPath × Json) :=
  (p.resolveFrom node base).filterMap Ending.found?

theorem hits_append (p q : FieldPath) (node : Json) (base : FieldPath) :
    (p ++ q).hits node base = (p.hits node base).flatMap (fun hit => q.hits hit.2 hit.1) := by
  unfold hits
  rw [resolveFrom_append]
  -- Over the endings of the first path: one that stopped finds nothing, either way.
  induction p.resolveFrom node base with
  | nil => rfl
  | cons e endings ih =>
    rw [List.flatMap_cons, List.filterMap_append, ih]
    cases e with
    | found location target => rfl
    | stopped location obstacle => rfl

theorem locate_eq_map_hits (p : FieldPath) (document : Json) :
    p.locate document = (p.hits document []).map Prod.fst := by
  rw [hits, List.map_filterMap]
  rfl

/-- Nothing can be found below null. -/
theorem resolveFrom_null (p base : FieldPath) :
    p.resolveFrom .null base = [.found base .null] ∨
      p.resolveFrom .null base = [.stopped base .null] := by
  cases p with
  | nil => exact .inl (by simp [resolveFrom, walk, Ending.under])
  | cons s rest =>
    refine .inr ?_
    cases s <;> simp [resolveFrom, walk, Ending.under, Segment.obstacle, Json.isNull]

end FieldPath

/-! ## Whole paths -/

/-- The node from which the last step of a path was taken, or could not be taken, at an ending of
the path; none if the path did not come so far. -/
def Ending.holder? (p : FieldPath) (document : Json) (e : Ending) : Option Json :=
  if p.length - 1 ≤ e.location.length then
    FieldPath.get? (e.location.take (p.length - 1)) document
  else none

/-- The findings of a rule when the whole path, through an anchor, is followed from the root of the
document. -/
def Rule.findingsAlong (r : Rule) (mode : Mode) (a : FieldPath) (document : Json) :
    List Finding :=
  let endings := (a ++ r.path).resolve document
  match r.demand with
  | .required => endings.flatMap (requireEnding mode r.label)
  | .format format => endings.flatMap (formatEnding format)
  | .requiredWhen condition equals =>
    match r.path.getLast? with
    | some (.key _) =>
      let asked := endings.filter (fun e =>
        (e.holder? (a ++ r.path) document).any (conditionHolds condition equals))
      asked.flatMap (requireEnding mode r.label)
    | _ => []

/-- The findings of a rule behind an ending of an anchor. What is required is missed there if the
anchor is not reached. -/
def Rule.findingsBehind (r : Rule) (mode : Mode) : Ending → List Finding
  | .found location node => r.findings mode node location
  | .stopped location obstacle =>
    match r.demand with
    | .required => requireEnding mode r.label (.stopped location obstacle)
    | .format _ => []
    | .requiredWhen _ _ => []

/-- What is found at the ending of an anchor itself. -/
def anchorEnding : Ending → List Finding
  | .found location node =>
    if node.isNull then [⟨.structural, location, Lack.null.message, "anchor"⟩] else []
  | .stopped location obstacle => [⟨.structural, location, obstacle.message, "anchor"⟩]

/-- Everything that is found in a document when every path is followed from its root. -/
def RuleSet.findingsAlong (s : RuleSet) (mode : Mode) (document : Json) : List Finding :=
  let document := document.cleaned
  s.anchors.flatMap (fun a => (a.resolve document).flatMap anchorEnding ++
    (s.rules mode).flatMap (fun r => r.findingsAlong mode a document)) ++
    s.schemaIssues mode document

/-! ## Holders -/

section

variable {holder : FieldPath} {key : String} {document : Json}

/-- Whatever the last step comes to, it was taken from the holder. -/
theorem holder?_of_found {location : FieldPath} {node : Json}
    (h : .found location node ∈ holder.walk document) {e : Ending}
    (he : e ∈ FieldPath.resolveFrom [.key key] node location) :
    e.holder? (holder ++ [Segment.key key]) document = some node := by
  obtain ⟨hcovers, hget⟩ := (FieldPath.found_mem_walk_iff _ _ _ _).mp h
  have hlength : (holder ++ [Segment.key key]).length - 1 = location.length := by
    rw [← hcovers.length_eq, List.length_append]
    rfl
  obtain ⟨inner, -, rfl⟩ := List.mem_map.mp he
  unfold Ending.holder?
  rw [hlength, Ending.location_under, List.take_left, hget, if_pos]
  rw [List.length_append]
  exact Nat.le_add_right _ _

/-- A walk that stops on the way to the holder has none. -/
theorem holder?_of_stopped {location : FieldPath} {obstacle : Obstacle}
    (h : .stopped location obstacle ∈ holder.walk document) :
    (Ending.stopped location obstacle).holder? (holder ++ [Segment.key key]) document = none := by
  have hlength : (holder ++ [Segment.key key]).length - 1 = holder.length := by
    rw [List.length_append]
    rfl
  have hshort : ∀ {before after : FieldPath} {s : Segment}, holder = before ++ s :: after →
      before.Covers location → ¬ holder.length ≤ location.length := by
    rintro before after s rfl hcovers
    rw [← hcovers.length_eq, List.length_append, List.length_cons]
    omega
  unfold Ending.holder?
  rw [hlength]
  cases (FieldPath.stopped_mem_walk_iff_stops _ _ _ _).mp h with
  | null hpath hcovers hget => exact if_neg (hshort hpath hcovers)
  | wrongKind hpath hcovers hget hsome hkind => exact if_neg (hshort hpath hcovers)
  | @absent before after inner s _ hpath hcovers hstep hholder hkind hnone =>
    -- The gap may be where the holder should be, but nothing is there.
    have htake : (inner ++ [s]).take holder.length = inner ++ [s] := by
      apply List.take_of_length_le
      simp only [hpath, List.length_append, ← hcovers.length_eq, List.length_cons, List.length_nil]
      omega
    change (if holder.length ≤ (inner ++ [s]).length then
      FieldPath.get? ((inner ++ [s]).take holder.length) document else none) = none
    rw [htake, hnone, ite_self]

end

/-! ## One rule -/

section

variable {mode : Mode} {document : Json}

/-- The branches of a path whose holders meet a condition are found with their holders. -/
theorem asked_eq_conditionEnding (rule : String) (holder : FieldPath) (key : String)
    (condition : FieldPath) (equals : Option Json) :
    (((holder ++ [Segment.key key]).resolve document).filter (fun e =>
        (e.holder? (holder ++ [Segment.key key]) document).any
          (conditionHolds condition equals))).flatMap (requireEnding mode rule) =
      (holder.resolve document).flatMap (conditionEnding mode rule key condition equals) := by
  rw [FieldPath.resolve_append, List.filter_flatMap, List.flatMap_assoc]
  apply List.flatMap_congr
  intro e he
  rw [FieldPath.mem_resolve] at he
  cases e with
  | found location node =>
    have hall : ∀ e ∈ FieldPath.resolveFrom [.key key] node location,
        (e.holder? (holder ++ [Segment.key key]) document).any (conditionHolds condition equals) =
          conditionHolds condition equals node := by
      intro e hlast
      rw [holder?_of_found he hlast]
      rfl
    simp only [Ending.andThen, conditionEnding]
    rw [List.filter_congr hall]
    cases conditionHolds condition equals node <;> simp
  | stopped location obstacle =>
    simp [Ending.andThen, conditionEnding, holder?_of_stopped he]

theorem flatMap_resolve_append (judge : Ending → List Finding) (p q : FieldPath)
    (document : Json) : ((p ++ q).resolve document).flatMap judge =
      (p.resolve document).flatMap (fun e => (e.andThen q).flatMap judge) := by
  rw [FieldPath.resolve_append, List.flatMap_assoc]

/-- A member that is required on a condition is asked for along the whole path as from its
holder. -/
theorem findingsAlong_of_key {holder : FieldPath} {key : String} {condition : FieldPath}
    {equals : Option Json} (a : FieldPath) (document : Json) :
    Rule.findingsAlong ⟨holder ++ [.key key], .requiredWhen condition equals⟩ mode a document =
      (a.resolve document).flatMap
        (Rule.findingsBehind ⟨holder ++ [.key key], .requiredWhen condition equals⟩ mode) := by
  have hsplit : FieldPath.splitLast? (holder ++ [Segment.key key]) = some (holder, .key key) :=
    (FieldPath.splitLast?_eq_some_iff _ _ _).mpr rfl
  unfold Rule.findingsAlong
  dsimp only
  rw [List.getLast?_concat, ← List.append_assoc]
  dsimp only
  rw [asked_eq_conditionEnding, flatMap_resolve_append]
  apply List.flatMap_congr
  intro e _
  cases e with
  | found location node =>
    simp only [Rule.findingsBehind, Rule.findings, hsplit]
    rfl
  | stopped location obstacle => rfl

/-- A rule whose path ends in no key asks for no member. -/
theorem findingsBehind_of_not_key {path : FieldPath} {condition : FieldPath}
    {equals : Option Json} (hpath : ∀ holder key, path ≠ holder ++ [.key key]) (e : Ending) :
    Rule.findingsBehind ⟨path, .requiredWhen condition equals⟩ mode e = [] := by
  cases e with
  | stopped location obstacle => rfl
  | found location node =>
    unfold Rule.findingsBehind Rule.findings
    dsimp only
    split
    · rename_i holder key hsplit
      exact absurd ((FieldPath.splitLast?_eq_some_iff _ _ _).mp hsplit) (hpath holder key)
    · rfl

/-- What a rule finds along whole paths it finds behind the endings of the anchor. -/
theorem Rule.findingsAlong_eq (r : Rule) (mode : Mode) (a : FieldPath) (document : Json) :
    r.findingsAlong mode a document = (a.resolve document).flatMap (r.findingsBehind mode) := by
  obtain ⟨path, demand⟩ := r
  cases demand with
  | required =>
    refine (flatMap_resolve_append _ a path document).trans (List.flatMap_congr ?_)
    intro e _
    cases e <;> rfl
  | format format =>
    refine (flatMap_resolve_append _ a path document).trans (List.flatMap_congr ?_)
    intro e _
    cases e <;> rfl
  | requiredWhen condition equals =>
    by_cases hkey : ∃ holder key, path = holder ++ [Segment.key key]
    · obtain ⟨holder, key, rfl⟩ := hkey
      exact findingsAlong_of_key a document
    · have hpath : ∀ holder key, path ≠ holder ++ [Segment.key key] :=
        fun holder key hsame => hkey ⟨holder, key, hsame⟩
      have hnone : findingsAlong ⟨path, .requiredWhen condition equals⟩ mode a document = [] := by
        unfold findingsAlong
        dsimp only
        split
        · rename_i key hlast
          obtain ⟨holder, hsame⟩ := List.getLast?_eq_some_iff.mp hlast
          exact absurd hsame (hpath holder key)
        · rfl
      rw [hnone, eq_comm, List.flatMap_eq_nil_iff]
      exact fun e _ => findingsBehind_of_not_key hpath e

end

/-! ## Null -/

theorem mem_judged_null {judge : Ending → List Finding} {p location : FieldPath} {f : Finding}
    (hf : f ∈ (p.resolveFrom .null location).flatMap judge) :
    f ∈ judge (.found location .null) ∨ f ∈ judge (.stopped location .null) := by
  rcases p.resolveFrom_null location with hnull | hnull
  · rw [hnull, List.flatMap_singleton] at hf
    exact .inl hf
  · rw [hnull, List.flatMap_singleton] at hf
    exact .inr hf

theorem conditionHolds_null (condition : FieldPath) (equals : Option Json) :
    conditionHolds condition equals .null = false := by
  unfold conditionHolds FieldPath.resolve
  rcases condition.resolveFrom_null [] with hnull | hnull
  · rw [hnull]
    rfl
  · rw [hnull]
    rfl

/-- At an anchor that is null a rule has nothing to say but that it is null. -/
theorem remark_of_mem_findings_null {r : Rule} {mode : Mode} {location : FieldPath} {f : Finding}
    (hf : f ∈ r.findings mode .null location) :
    f.weight = .structural ∧ f.remark = (location, Lack.null.message) := by
  unfold Rule.findings at hf
  split at hf
  · rcases mem_judged_null hf with hf | hf
    · obtain rfl := List.mem_singleton.mp hf
      exact ⟨rfl, rfl⟩
    · obtain rfl := List.mem_singleton.mp hf
      exact ⟨rfl, rfl⟩
  · rcases mem_judged_null hf with hf | hf <;> cases hf
  · split at hf
    · rcases mem_judged_null hf with hf | hf
      · rw [conditionEnding, conditionHolds_null] at hf
        cases hf
      · cases hf
    · cases hf

namespace RuleSet

variable {s : RuleSet} {mode : Mode} {f : Finding}

/-- What is found step by step is found along whole paths. -/
theorem mem_along_of_mem_anchorFindings {a : FieldPath} {document : Json} {e : Ending}
    (he : e ∈ a.resolve document) (hf : f ∈ s.anchorFindings mode e) :
    f ∈ (a.resolve document).flatMap anchorEnding ++
      (s.rules mode).flatMap (fun r => r.findingsAlong mode a document) := by
  rw [List.mem_append, List.mem_flatMap, List.mem_flatMap]
  cases e with
  | stopped location obstacle => exact .inl ⟨_, he, hf⟩
  | found location node =>
    rw [anchorFindings] at hf
    by_cases hnull : node.isNull = true
    · rw [if_pos hnull] at hf
      exact .inl ⟨_, he, by rw [anchorEnding, if_pos hnull]; exact hf⟩
    · rw [if_neg hnull] at hf
      obtain ⟨r, hr, hf⟩ := List.mem_flatMap.mp hf
      refine .inr ⟨r, hr, ?_⟩
      rw [r.findingsAlong_eq]
      exact List.mem_flatMap.mpr ⟨_, he, hf⟩

/-- What an anchor is found to be is found step by step as well. -/
theorem mem_anchorFindings_of_mem_anchorEnding {e : Ending} (hf : f ∈ anchorEnding e) :
    f ∈ s.anchorFindings mode e := by
  cases e with
  | stopped location obstacle => exact hf
  | found location node =>
    rw [anchorEnding] at hf
    rw [anchorFindings]
    split at hf
    · rename_i hnull
      rw [if_pos hnull]
      exact hf
    · cases hf

/-- What a rule finds behind an anchor is said step by step, by the rule or of the anchor. -/
theorem said_of_mem_findingsBehind {r : Rule} (hr : r ∈ s.rules mode) {e : Ending}
    (hf : f ∈ r.findingsBehind mode e) :
    ∃ g ∈ s.anchorFindings mode e, g.weight = f.weight ∧ g.remark = f.remark := by
  cases e with
  | stopped location obstacle =>
    refine ⟨_, List.mem_singleton_self _, ?_⟩
    unfold Rule.findingsBehind at hf
    dsimp only at hf
    split at hf
    · obtain rfl := List.mem_singleton.mp hf
      exact ⟨rfl, rfl⟩
    · cases hf
    · cases hf
  | found location node =>
    rw [anchorFindings]
    by_cases hnull : node.isNull = true
    · obtain rfl := node.isNull_iff.mp hnull
      obtain ⟨hweight, hremark⟩ := remark_of_mem_findings_null hf
      rw [if_pos hnull]
      exact ⟨_, List.mem_singleton_self _, hweight.symm, hremark.symm⟩
    · rw [if_neg hnull]
      exact ⟨f, List.mem_flatMap.mpr ⟨r, hr, hf⟩, rfl, rfl⟩

theorem findings_said_along (s : RuleSet) (mode : Mode) (document : Json) :
    SaidBy (s.findings mode document) (s.findingsAlong mode document) := by
  intro f hf
  refine ⟨f, ?_, rfl, rfl⟩
  unfold findings at hf
  unfold findingsAlong
  rcases List.mem_append.mp hf with hf | hf
  · obtain ⟨a, ha, hf⟩ := List.mem_flatMap.mp hf
    obtain ⟨e, he, hf⟩ := List.mem_flatMap.mp hf
    exact List.mem_append_left _
      (List.mem_flatMap.mpr ⟨a, ha, mem_along_of_mem_anchorFindings he hf⟩)
  · exact List.mem_append_right _ hf

theorem findingsAlong_said (s : RuleSet) (mode : Mode) (document : Json) :
    SaidBy (s.findingsAlong mode document) (s.findings mode document) := by
  intro f hf
  unfold findingsAlong at hf
  unfold findings
  have hstep : ∀ {a e g}, a ∈ s.anchors → e ∈ a.resolve document.cleaned →
      g ∈ s.anchorFindings mode e →
      g ∈ s.anchors.flatMap
        (fun a => (a.resolve document.cleaned).flatMap (s.anchorFindings mode)) :=
    fun ha he hg => List.mem_flatMap.mpr ⟨_, ha, List.mem_flatMap.mpr ⟨_, he, hg⟩⟩
  rcases List.mem_append.mp hf with hf | hf
  · obtain ⟨a, ha, hf⟩ := List.mem_flatMap.mp hf
    rcases List.mem_append.mp hf with hf | hf
    · obtain ⟨e, he, hf⟩ := List.mem_flatMap.mp hf
      have hanchor : f ∈ s.anchorFindings mode e := mem_anchorFindings_of_mem_anchorEnding hf
      exact ⟨f, List.mem_append_left _ (hstep ha he hanchor), rfl, rfl⟩
    · obtain ⟨r, hr, hf⟩ := List.mem_flatMap.mp hf
      rw [r.findingsAlong_eq] at hf
      obtain ⟨e, he, hf⟩ := List.mem_flatMap.mp hf
      obtain ⟨g, hg, hsame⟩ := said_of_mem_findingsBehind hr hf
      exact ⟨g, List.mem_append_left _ (hstep ha he hg), hsame⟩
  · exact ⟨f, List.mem_append_right _ hf, rfl, rfl⟩

/-- What a rule set comes to step by step it comes to along whole paths. -/
structure Joins (s : RuleSet) (mode : Mode) (document : Json) : Prop where
  /-- The whole path of a rule locates the nodes that it finds from those of the anchor. -/
  located : ∀ (a : FieldPath) (r : Rule), (a ++ r.path).locate document =
    ((a.hits document []).flatMap (fun hit => r.path.hits hit.2 hit.1)).map Prod.fst
  /-- The rule finds the same fault with them, in the same order. -/
  findings : ∀ (a : FieldPath) (r : Rule), r.findingsAlong mode a document =
    (a.resolve document).flatMap (r.findingsBehind mode)
  /-- The report says the same, in the same order. -/
  report : (report (s.findingsAlong mode document)).map Violation.remark =
    (s.check mode document).map Violation.remark

theorem joins (s : RuleSet) (mode : Mode) (document : Json) : s.Joins mode document where
  located := by
    intro a r
    rw [FieldPath.locate_eq_map_hits, FieldPath.hits_append]
  findings := fun a r => r.findingsAlong_eq mode a document
  report := report_of_said (s.findingsAlong_said mode document)
    (s.findings_said_along mode document)

/-- Resolution composes. To follow two paths joined is to follow the second from each node that the
first one finds and to stop where the first one stops; so it does not matter to a check in how many
steps it goes to a node. -/
theorem resolution_composes :
    (∀ (p q : FieldPath) (node : Json) (base : FieldPath),
      (p ++ q).resolveFrom node base = (p.resolveFrom node base).flatMap (Ending.andThen q) ∧
      (p ++ q).hits node base = (p.hits node base).flatMap (fun hit => q.hits hit.2 hit.1)) ∧
    ∀ (s : RuleSet) (mode : Mode) (document : Json), s.Joins mode document :=
  ⟨fun p q node base => ⟨p.resolveFrom_append q node base, p.hits_append q node base⟩, joins⟩

/-! A title that is null. It is reported once, although the whole path of the rule finds it and the
anchor stops the rule from looking at it. -/

namespace Example

def titles : RuleSet where
  listType := ⟨"DAILY_LIST", ListType.isCanonical_daily⟩
  givenAnchors := [[.key "title"]]
  baseRules := [⟨[], .required⟩]
  strictRules := []
  schema := none

def untitled : Json := .object [("title", .null)]

end Example

example : (Example.titles.findings .basic Example.untitled).map Finding.rule = ["anchor"] ∧
    (Example.titles.findingsAlong .basic Example.untitled).map Finding.rule =
      ["anchor", "required"] ∧
    (report (Example.titles.findingsAlong .basic Example.untitled)).map Violation.remark =
      [([.key "title"], "is null")] := by
  decide +kernel

end RuleSet

end CauseLists
