-- No false alarms. Whatever a rule or an anchor is reported for is so: each finding is traced to
-- the ending of a walk along a path of the rule set, and what the ending says of the document is
-- said again by a lookup at the location alone. The sentences of a report stand for what they say,
-- since no two sorts of finding share one.
import CauseLists.Proofs.FieldPath.Locations
import CauseLists.Proofs.Inspection.Passing
import CauseLists.Proofs.ListType

namespace CauseLists

/-! ## Where findings come from -/

/-- A path that a rule set follows into a document: an anchor, or the path of a rule behind one. -/
inductive RuleSet.Follows (s : RuleSet) (mode : Mode) : FieldPath → Prop
  | anchor {a : FieldPath} (ha : a ∈ s.anchors) : Follows s mode a
  | rule {a : FieldPath} {r : Rule} (ha : a ∈ s.anchors) (hr : r ∈ s.rules mode) :
    Follows s mode (a ++ r.path)

/-- What a rule set finds in a document at the endings of the paths that it follows. -/
inductive RuleSet.Finds (s : RuleSet) (mode : Mode) (document : Json) : Finding → Prop
  | stopped {p location : FieldPath} {obstacle : Obstacle} {rule : String}
    (hp : s.Follows mode p) (he : .stopped location obstacle ∈ p.walk document) :
    Finds s mode document ⟨.structural, location, obstacle.message, rule⟩
  | lacking {p location : FieldPath} {node : Json} {lack : Lack} {rule : String}
    (hp : s.Follows mode p) (he : .found location node ∈ p.walk document)
    (hlack : lack? mode node = some lack) :
    Finds s mode document ⟨.structural, location, lack.message, rule⟩
  | format {a location : FieldPath} {r : Rule} {format : Format} {node : Json}
    {fault : FormatFault} (ha : a ∈ s.anchors) (hr : r ∈ s.rules mode)
    (hdemand : r.demand = .format format) (he : .found location node ∈ (a ++ r.path).walk document)
    (hnull : node ≠ .null) (hcheck : format.check node = .error fault) :
    Finds s mode document ⟨.content, location, fault.message, format.label⟩

theorem FieldPath.mem_walk_append {p q location : FieldPath} {node target : Json} {e : Ending}
    (h : .found location target ∈ p.walk node) (he : e ∈ q.resolveFrom target location) :
    e ∈ (p ++ q).walk node := by
  rw [walk_append, List.mem_flatMap]
  exact ⟨_, h, he⟩

section

variable {s : RuleSet} {mode : Mode} {document : Json} {f : Finding}

theorem finds_of_requireEnding {p : FieldPath} {rule : String} {e : Ending}
    (hp : s.Follows mode p) (he : e ∈ p.walk document) (hf : f ∈ requireEnding mode rule e) :
    s.Finds mode document f := by
  cases e with
  | stopped location obstacle =>
    obtain rfl := List.mem_singleton.mp hf
    exact .stopped hp he
  | found location node =>
    cases hlack : lack? mode node with
    | none => simp [requireEnding, hlack] at hf
    | some lack =>
      simp only [requireEnding, hlack] at hf
      obtain rfl := List.mem_singleton.mp hf
      exact .lacking hp he hlack

theorem finds_of_formatEnding {a : FieldPath} {r : Rule} {format : Format} {e : Ending}
    (ha : a ∈ s.anchors) (hr : r ∈ s.rules mode) (hdemand : r.demand = .format format)
    (he : e ∈ (a ++ r.path).walk document) (hf : f ∈ formatEnding format e) :
    s.Finds mode document f := by
  cases e with
  | stopped location obstacle => cases hf
  | found location node =>
    simp only [formatEnding] at hf
    split at hf
    · cases hf
    · rename_i hnull
      split at hf
      · cases hf
      · rename_i fault hcheck
        obtain rfl := List.mem_singleton.mp hf
        exact .format ha hr hdemand he (fun h => hnull (node.isNull_iff.mpr h)) hcheck

/-- A member that is required of a holder is where the path of the rule ends. -/
theorem finds_of_conditionEnding {a holder : FieldPath} {r : Rule} {rule key : String}
    {condition : FieldPath} {equals : Option Json} {e : Ending} (ha : a ∈ s.anchors)
    (hr : r ∈ s.rules mode) (hpath : r.path = holder ++ [.key key])
    (he : e ∈ (a ++ holder).walk document)
    (hf : f ∈ conditionEnding mode rule key condition equals e) : s.Finds mode document f := by
  cases e with
  | stopped location obstacle => cases hf
  | found location node =>
    simp only [conditionEnding] at hf
    split at hf
    · obtain ⟨e, hmember, hf⟩ := List.mem_flatMap.mp hf
      have hwalk := FieldPath.mem_walk_append he hmember
      rw [List.append_assoc, ← hpath] at hwalk
      exact finds_of_requireEnding (.rule ha hr) hwalk hf
    · cases hf

theorem finds_of_rule {a location : FieldPath} {r : Rule} {anchor : Json} (ha : a ∈ s.anchors)
    (hr : r ∈ s.rules mode) (hanchor : .found location anchor ∈ a.walk document)
    (hf : f ∈ r.findings mode anchor location) : s.Finds mode document f := by
  unfold Rule.findings at hf
  split at hf
  · obtain ⟨e, he, hf⟩ := List.mem_flatMap.mp hf
    exact finds_of_requireEnding (.rule ha hr) (FieldPath.mem_walk_append hanchor he) hf
  · rename_i format hdemand
    obtain ⟨e, he, hf⟩ := List.mem_flatMap.mp hf
    exact finds_of_formatEnding ha hr hdemand (FieldPath.mem_walk_append hanchor he) hf
  · split at hf
    · rename_i holder key hsplit
      obtain ⟨e, he, hf⟩ := List.mem_flatMap.mp hf
      exact finds_of_conditionEnding ha hr ((FieldPath.splitLast?_eq_some_iff _ _ _).mp hsplit)
        (FieldPath.mem_walk_append hanchor he) hf
    · cases hf

theorem finds_of_anchorFindings {a : FieldPath} {e : Ending} (ha : a ∈ s.anchors)
    (he : e ∈ a.walk document) (hf : f ∈ s.anchorFindings mode e) : s.Finds mode document f := by
  cases e with
  | stopped location obstacle =>
    obtain rfl := List.mem_singleton.mp hf
    exact .stopped (.anchor ha) he
  | found location node =>
    simp only [RuleSet.anchorFindings] at hf
    split at hf
    · rename_i hnull
      obtain rfl := List.mem_singleton.mp hf
      obtain rfl := node.isNull_iff.mp hnull
      exact .lacking (.anchor ha) he rfl
    · obtain ⟨r, hr, hf⟩ := List.mem_flatMap.mp hf
      exact finds_of_rule ha hr he hf

/-- Whatever is found under another name than that of the schema is found at an ending. -/
theorem finds_of_mem_findings (hf : f ∈ s.findings mode document) (hrule : f.rule ≠ "schema") :
    s.Finds mode document.withoutControls f := by
  unfold RuleSet.findings at hf
  rw [Json.cleaned_eq_withoutControls] at hf
  rcases List.mem_append.mp hf with hf | hf
  · obtain ⟨a, ha, hf⟩ := List.mem_flatMap.mp hf
    obtain ⟨e, he, hf⟩ := List.mem_flatMap.mp hf
    have hwalk : a.resolve document.withoutControls = a.walk document.withoutControls := by
      simp [FieldPath.resolve, FieldPath.resolveFrom]
    rw [hwalk] at he
    exact finds_of_anchorFindings ha he hf
  · -- The schema puts its own name to what it finds.
    unfold RuleSet.schemaIssues at hf
    split at hf
    · obtain ⟨i, -, rfl⟩ := List.mem_map.mp hf
      exact absurd rfl hrule
    · cases hf

end

/-! ## Sentences -/

theorem Kind.comma_notMem_phrase (k : Kind) : ',' ∉ k.phrase.toList := by
  cases k <;> decide

theorem Kind.phrase_inj {k l : Kind} (h : k.phrase.toList = l.phrase.toList) : k = l := by
  cases k <;> cases l <;> first | rfl | exact absurd h (by decide)

theorem Obstacle.toList_wrongKind (expected found : Kind) :
    (Obstacle.wrongKind expected found).message.toList =
      "expected ".toList ++ (expected.phrase.toList ++ ',' :: (" found ".toList ++
        found.phrase.toList)) := by
  simp [message]

/-- The sentence on a node of the wrong kind tells both kinds. -/
theorem Obstacle.wrongKind_message_inj {expected found expected' found' : Kind}
    (h : (Obstacle.wrongKind expected found).message =
      (Obstacle.wrongKind expected' found').message) : expected = expected' ∧ found = found' := by
  have hchars := congrArg String.toList h
  rw [toList_wrongKind, toList_wrongKind] at hchars
  -- The comma stands behind the first kind, and nowhere else.
  have hcomma : ',' ∉ " found ".toList ++ found.phrase.toList := by
    rw [List.mem_append, not_or]
    exact ⟨by decide, found.comma_notMem_phrase⟩
  obtain ⟨hexpected, -, hfound⟩ := (List.append_cons_inj_of_notMem
    expected.comma_notMem_phrase hcomma).mp (List.append_cancel_left hchars)
  exact ⟨Kind.phrase_inj hexpected, Kind.phrase_inj (List.append_cancel_left hfound)⟩

theorem Obstacle.head?_wrongKind (expected found : Kind) :
    (Obstacle.wrongKind expected found).message.toList.head? = some 'e' := by
  rw [toList_wrongKind]
  rfl

theorem head?_toList_append {s t : String} {c : Char} (h : s.toList.head? = some c) :
    (s ++ t).toList.head? = some c := by
  rw [String.toList_append, List.head?_append, h]
  rfl

/-- A fault of a format speaks of kinds, or it starts with the value or says what must be. -/
theorem FormatFault.head?_message (fault : FormatFault) :
    (∃ found, fault = .notText found) ∨ fault.message.toList.head? = some '"' ∨
      fault.message.toList.head? = some 'm' := by
  have hquote : "\"".toList.head? = some '"' := rfl
  cases fault with
  | notText found => exact .inl ⟨found, rfl⟩
  | malformed value shape =>
    exact .inr (.inl (head?_toList_append (head?_toList_append (head?_toList_append hquote))))
  | notReal value => exact .inr (.inl (head?_toList_append (head?_toList_append hquote)))
  | noMatch value source =>
    exact .inr (.inl (head?_toList_append (head?_toList_append (head?_toList_append hquote))))
  | wrongLength expected actual =>
    exact .inr (.inr (head?_toList_append (head?_toList_append (head?_toList_append rfl))))
  | notInitial actual => exact .inr (.inr (head?_toList_append (head?_toList_append rfl)))

theorem FormatFault.message_notText (found : Kind) :
    (FormatFault.notText found).message = (Obstacle.wrongKind .string found).message := by
  cases found <;> decide

/-- Of the faults of a format only one speaks of kinds: a text was expected. -/
theorem FormatFault.message_eq_wrongKind {fault : FormatFault} {expected found : Kind}
    (h : fault.message = (Obstacle.wrongKind expected found).message) :
    expected = .string ∧ fault = .notText found := by
  have hhead := Obstacle.head?_wrongKind expected found
  rw [← h] at hhead
  rcases fault.head?_message with ⟨kind, rfl⟩ | hother | hother
  · rw [message_notText] at h
    obtain ⟨rfl, rfl⟩ := Obstacle.wrongKind_message_inj h
    exact ⟨rfl, rfl⟩
  · cases hhead.symm.trans hother
  · cases hhead.symm.trans hother

/-- No fault of a format is told in the words for a node that is missing or of no use. -/
theorem FormatFault.head?_message_ne (fault : FormatFault) :
    fault.message.toList.head? ≠ some 'i' := by
  rcases fault.head?_message with ⟨kind, rfl⟩ | hother | hother
  · rw [message_notText, Obstacle.head?_wrongKind]
    decide
  · rw [hother]
    decide
  · rw [hother]
    decide

/-! ## Lines of a report -/

/-- A path of a rule set goes through a location and needs a node of some kind there: to step into
it, or, where the path of a rule with a format ends, to have a text to judge. -/
inductive RuleSet.Needs (s : RuleSet) (mode : Mode) (location : FieldPath) : Kind → Prop
  | step {p before after : FieldPath} {next : Segment} (hp : s.Follows mode p)
    (hpath : p = before ++ next :: after) (hcovers : before.Covers location) :
    Needs s mode location next.container
  | text {a : FieldPath} {r : Rule} {format : Format} (ha : a ∈ s.anchors)
    (hr : r ∈ s.rules mode) (hdemand : r.demand = .format format)
    (hcovers : (a ++ r.path).Covers location) : Needs s mode location .string

/-- What a line says of a location is so in a document. The node at the location, or at its parent
for a part that is missing, is told by a lookup. -/
structure RuleSet.Describes (s : RuleSet) (mode : Mode) (document : Json) (location : FieldPath)
    (reason : String) : Prop where
  concrete : location.isConcrete = true
  missing : reason = "is missing" → ∃ (parent : FieldPath) (last : Segment) (holder : Json),
    location = parent ++ [last] ∧ parent.get? document = some holder ∧
    holder.kind = last.container ∧ FieldPath.get? [last] holder = none
  null : reason = "is null" → location.get? document = some .null
  empty : reason = "is empty" → location.get? document = some (.array [])
  blank : reason = "is blank" → mode = .strict ∧ ∃ text,
    location.get? document = some (.string text) ∧ ∀ c ∈ text.toList, Text.isBlank c = true
  kinds : ∀ expected found : Kind,
    reason = "expected " ++ expected.phrase ++ ", found " ++ found.phrase →
    s.Needs mode location expected ∧ ∃ node, location.get? document = some node ∧ node.kind = found
  format : reason ∉ ["is missing", "is null", "is empty", "is blank"] →
    (∀ expected found : Kind, expected ≠ .string →
      reason ≠ "expected " ++ expected.phrase ++ ", found " ++ found.phrase) →
    ∃ a ∈ s.anchors, ∃ r ∈ s.rules mode, ∃ format node fault, r.demand = .format format ∧
      (a ++ r.path).Covers location ∧ location.get? document = some node ∧ node ≠ .null ∧
      format.check node = .error fault ∧ reason = fault.message

/-- What a node lacks that has to be there. -/
inductive Json.Lacks (mode : Mode) : Json → Lack → Prop
  | null : Lacks mode .null .null
  | emptyArray : Lacks mode (.array []) .emptyArray
  | blankText {text : String} (hmode : mode = .strict)
    (hblank : ∀ c ∈ text.toList, Text.isBlank c = true) : Lacks mode (.string text) .blankText

theorem lacks_of_lack? {mode : Mode} {node : Json} {lack : Lack}
    (h : lack? mode node = some lack) : node.Lacks mode lack := by
  cases node with
  | null =>
    cases h
    exact .null
  | array items =>
    cases items with
    | nil =>
      cases h
      exact .emptyArray
    | cons _ _ => cases h
  | string text =>
    simp only [lack?] at h
    split at h
    · rename_i hblank
      cases h
      rw [Bool.and_eq_true] at hblank
      cases mode with
      | basic => cases hblank.1
      | strict => exact .blankText rfl (List.all_eq_true.mp hblank.2)
    · cases h
  | bool _ => cases h
  | number _ => cases h
  | object _ => cases h

theorem Format.checkText_ne_notText (format : Format) (value : String) (found : Kind) :
    format.checkText value ≠ .error (.notText found) := by
  cases format with
  | dateTime =>
    simp only [checkText, checkDateTime]
    split
    · split <;> simp
    · simp
  | date =>
    simp only [checkText, checkDate]
    split
    · split <;> simp
    · simp
  | fixedLength length =>
    simp only [checkText, checkLength]
    split <;> simp
  | initialOrEmpty =>
    simp only [checkText, checkInitial]
    split <;> simp
  | postcode =>
    simp only [checkText, checkPostcode]
    split <;> simp
  | pattern p =>
    simp only [checkText]
    split <;> simp

/-- A format that finds no text names the kind of what it finds. -/
theorem Format.kind_of_notText {format : Format} {node : Json} {found : Kind}
    (h : format.check node = .error (.notText found)) : node.kind = found := by
  cases node with
  | string value => exact absurd h (format.checkText_ne_notText value found)
  | _ =>
    cases h
    rfl

/-- A sentence that starts like this one is none about kinds. -/
theorem ne_wrongKind_of_head? {reason : String} (h : reason.toList.head? = some 'i')
    (expected found : Kind) : reason ≠ (Obstacle.wrongKind expected found).message := by
  intro heq
  have hhead := Obstacle.head?_wrongKind expected found
  rw [← heq, h] at hhead
  cases hhead

section

variable {s : RuleSet} {mode : Mode} {document node : Json} {location : FieldPath}

theorem describes_of_absent {parent : FieldPath} {last : Segment} {holder : Json}
    (hconcrete : (parent ++ [last]).isConcrete = true) (hget : parent.get? document = some holder)
    (hkind : holder.kind = last.container) (hgap : FieldPath.get? [last] holder = none) :
    s.Describes mode document (parent ++ [last]) "is missing" where
  concrete := hconcrete
  missing _ := ⟨parent, last, holder, rfl, hget, hkind, hgap⟩
  null h := absurd h (by decide)
  empty h := absurd h (by decide)
  blank h := absurd h (by decide)
  kinds expected found h := absurd h (ne_wrongKind_of_head? rfl expected found)
  format h := absurd List.mem_cons_self h

theorem describes_of_lacks {lack : Lack} (hconcrete : location.isConcrete = true)
    (hget : location.get? document = some node) (h : node.Lacks mode lack) :
    s.Describes mode document location lack.message where
  concrete := hconcrete
  missing hreason := by cases lack <;> exact absurd hreason (by decide)
  null hreason := by
    cases h with
    | null => exact hget
    | _ => exact absurd hreason (by decide)
  empty hreason := by
    cases h with
    | emptyArray => exact hget
    | _ => exact absurd hreason (by decide)
  blank hreason := by
    cases h with
    | blankText hmode hblank => exact ⟨hmode, _, hget, hblank⟩
    | _ => exact absurd hreason (by decide)
  kinds expected found hreason := by
    cases lack <;> exact absurd hreason (ne_wrongKind_of_head? rfl expected found)
  format hreason := by cases lack <;> exact absurd (by decide) hreason

theorem describes_of_wrongKind {p before after : FieldPath} {next : Segment}
    (hp : s.Follows mode p) (hpath : p = before ++ next :: after)
    (hcovers : before.Covers location) (hget : location.get? document = some node) :
    s.Describes mode document location (Obstacle.wrongKind next.container node.kind).message where
  concrete := hcovers.isConcrete
  missing h := absurd h.symm (ne_wrongKind_of_head? rfl _ _)
  null h := absurd h.symm (ne_wrongKind_of_head? rfl _ _)
  empty h := absurd h.symm (ne_wrongKind_of_head? rfl _ _)
  blank h := absurd h.symm (ne_wrongKind_of_head? rfl _ _)
  kinds expected found h := by
    obtain ⟨rfl, rfl⟩ := Obstacle.wrongKind_message_inj h
    exact ⟨.step hp hpath hcovers, node, hget, rfl⟩
  format _ h := by
    refine absurd rfl (h next.container node.kind ?_)
    cases next <;> simp [Segment.container]

theorem describes_of_fault {a : FieldPath} {r : Rule} {format : Format} {fault : FormatFault}
    (ha : a ∈ s.anchors) (hr : r ∈ s.rules mode) (hdemand : r.demand = .format format)
    (hcovers : (a ++ r.path).Covers location) (hget : location.get? document = some node)
    (hnull : node ≠ .null) (hcheck : format.check node = .error fault) :
    s.Describes mode document location fault.message where
  concrete := hcovers.isConcrete
  missing h := absurd (congrArg (fun t => t.toList.head?) h) fault.head?_message_ne
  null h := absurd (congrArg (fun t => t.toList.head?) h) fault.head?_message_ne
  empty h := absurd (congrArg (fun t => t.toList.head?) h) fault.head?_message_ne
  blank h := absurd (congrArg (fun t => t.toList.head?) h) fault.head?_message_ne
  kinds expected found h := by
    obtain ⟨rfl, rfl⟩ := FormatFault.message_eq_wrongKind h
    exact ⟨.text ha hr hdemand hcovers, node, hget, Format.kind_of_notText hcheck⟩
  format _ _ := ⟨a, ha, r, hr, format, node, fault, hdemand, hcovers, hget, hnull, hcheck, rfl⟩

/-- Whatever is found at an ending is so. -/
theorem describes_of_finds {f : Finding} (h : s.Finds mode document f) :
    s.Describes mode document f.location f.reason := by
  cases h with
  | stopped hp he =>
    cases FieldPath.tells_of_mem_walk he with
    | absent hpath hcovers hstep hget hkind hgap =>
      have hlocation := FieldPath.Covers.isConcrete (List.rel_append hcovers (.cons hstep .nil))
      exact describes_of_absent hlocation hget hkind hgap
    | null hpath hcovers hget => exact describes_of_lacks hcovers.isConcrete hget .null
    | wrongKind hpath hcovers hget => exact describes_of_wrongKind hp hpath hcovers hget
  | lacking hp he hlack =>
    cases FieldPath.tells_of_mem_walk he with
    | found hcovers hget =>
      exact describes_of_lacks hcovers.isConcrete hget (lacks_of_lack? hlack)
  | format ha hr hdemand he hnull hcheck =>
    cases FieldPath.tells_of_mem_walk he with
    | found hcovers hget => exact describes_of_fault ha hr hdemand hcovers hget hnull hcheck

end

/-! ## Reports -/

namespace RuleSet

/-- No false alarms. Every line of a report that is not the schema's names one place and says what
is so there, in the document without control characters: that a part is missing from a container
that could hold it, that a node is null, empty or, in strict mode, blank, that a node is of a
kind that the rule set cannot use there, or else what the format of a rule has to say of a node
that is there. -/
theorem no_line_is_a_false_alarm (s : RuleSet) (mode : Mode) (document : Json) (v : Violation)
    (hv : v ∈ s.check mode document) (hrule : v.rule ≠ "schema") :
    s.Describes mode document.withoutControls v.location v.reason := by
  obtain ⟨f, hf, rfl⟩ := exists_of_mem_report hv
  exact describes_of_finds (finds_of_mem_findings hf hrule)

/-! Two court houses. The first is no more than a name, and the second has no address and was opened
in a year instead of on a day. -/

namespace Example

/-- Every court house has a postcode and, in strict mode, a day on which it was opened. -/
def houses : RuleSet where
  listType := ⟨"DAILY_LIST", ListType.isCanonical_daily⟩
  givenAnchors := [[.key "houses", .each]]
  baseRules := [⟨[.key "address", .key "postCode"], .required⟩]
  strictRules := [⟨[.key "opened"], .format .date⟩]
  schema := none

def town : Json :=
  .object [("houses", .array [.string "Leeds", .object [("opened", .number (.whole 1858))]])]

def house (i : Nat) : FieldPath := [.key "houses", .index i]

end Example

theorem the_first_house_is_no_object :
    Example.houses.check .strict Example.town =
      [⟨Example.house 0, "expected an object, found a string", "required"⟩,
        ⟨Example.house 1 ++ [.key "address"], "is missing", "required"⟩,
        ⟨Example.house 1 ++ [.key "opened"], "expected a string, found a number", "date"⟩] ∧
      "required" ≠ "schema" ∧ Example.houses.Needs .strict (Example.house 0) .object ∧
      ∃ node, (Example.house 0).get? Example.town.withoutControls = some node ∧
        node.kind = .string := by
  have hcheck : Example.houses.check .strict Example.town =
      [⟨Example.house 0, "expected an object, found a string", "required"⟩,
        ⟨Example.house 1 ++ [.key "address"], "is missing", "required"⟩,
        ⟨Example.house 1 ++ [.key "opened"], "expected a string, found a number", "date"⟩] := by
    decide +kernel
  have hline : ⟨Example.house 0, "expected an object, found a string", "required"⟩ ∈
      Example.houses.check .strict Example.town := by
    rw [hcheck]
    exact List.mem_cons_self
  have hrule : "required" ≠ "schema" := by decide
  have hdescribes := no_line_is_a_false_alarm _ _ _ _ hline hrule
  exact ⟨hcheck, hrule, hdescribes.kinds .object .string (by decide)⟩

end RuleSet

end CauseLists
