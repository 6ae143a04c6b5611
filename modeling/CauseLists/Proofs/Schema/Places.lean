-- Where the failures of a schema are. The library points at a node of the document by a pointer.
-- The report reads the pointer as a place, and a report on anything below a key that is written
-- like an index is lost for lookups then.
import CauseLists.Bundled.Libraries
import CauseLists.Proofs.FieldPath.Endings
import CauseLists.Proofs.FieldPath.Locations
import CauseLists.Proofs.FieldPath.Pointers
import CauseLists.Proofs.Json.Keys
import CauseLists.Schema

namespace CauseLists

namespace SchemaFailure

/-- A failure is at a place of a document: its pointer is that of the place, and a node is there. -/
def IsAt (f : SchemaFailure) (place : FieldPath) (document : Json) : Prop :=
  f.pointer = place.pointer ∧ ∃ node, place.get? document = some node

/-- The report of a failure at a place is about the place, or about a member that is missing there;
the place has been written as a pointer and read again. -/
theorem location_issue {f : SchemaFailure} {place : FieldPath} {document : Json}
    (h : f.IsAt place document) :
    f.issue.location = FieldPath.ofPointer place.pointer ++ f.missing.toList.map .key := by
  rw [← h.1]
  unfold issue
  cases f.missing with
  | none => exact (List.append_nil _).symm
  | some member => rfl

end SchemaFailure

/-! ## Pointers as places -/

namespace FieldPath

/-- A location comes back from its pointer exactly if none of its keys is written like an index.
Each key that is comes back as that index. Whatever library finds the failures of a schema: what is
reported on a failure at or below a location with such a key is at a place that leads nowhere in
the document, and a failure at any other location is reported there. -/
theorem a_pointer_leads_back_unless_a_key_is_a_numeral (p : FieldPath)
    (hconcrete : p.isConcrete = true) (hindices : ∀ i, .index i ∈ p → i ≤ Text.maxWord64) :
    (ofPointer p.pointer = p ↔
      ∀ name, .key name ∈ p → ∀ i, ¬ WritesInner (.index i) name.toList) ∧
    List.Forall₂ Segment.ComesBack p (ofPointer p.pointer) ∧
    ∀ (s : SchemaDocument) (document : Json),
      s.issues document = (s.failures document).map SchemaFailure.issue ∧
      ∀ f ∈ s.failures document, ∀ place, f.IsAt place document →
        (place = p → ofPointer p.pointer = p →
          f.issue.location = p ++ f.missing.toList.map .key) ∧
        (p <+: place → ofPointer p.pointer ≠ p →
          ∀ more, get? (f.issue.location ++ more) document = none) := by
  refine ⟨ofPointer_pointer_eq_self_iff hconcrete hindices, comesBack hconcrete hindices, ?_⟩
  intro s document
  refine ⟨rfl, ?_⟩
  intro f _ place hplace
  constructor
  · rintro rfl hsame
    rw [SchemaFailure.location_issue hplace, hsame]
  · rintro ⟨below, hbelow⟩ hlost more
    have hchanged : ofPointer place.pointer ≠ place := by
      intro hsame
      refine hlost ?_
      rw [ofPointer_pointer] at hsame ⊢
      rw [← hbelow, List.map_append] at hsame
      exact (List.append_inj hsame (by simp)).1
    obtain ⟨node, hnode⟩ := hplace.2
    rw [SchemaFailure.location_issue hplace, List.append_assoc]
    exact get?_ofPointer hnode hchanged _

end FieldPath

/-! ## The failures that the bundled schemas find -/

/-- A failure is at a node at or below a place. -/
def SchemaFailure.About (f : SchemaFailure) (base : FieldPath) (node : Json) : Prop :=
  ∃ inner, f.pointer = (base ++ inner).pointer ∧ ∃ target, FieldPath.get? inner node = some target

namespace SchemaFailure.About

variable {base : FieldPath} {node child : Json} {f : SchemaFailure}

/-- A failure further in is one further out. -/
theorem out {s t : Segment} (hleads : s.Leads node t child) (h : f.About (base ++ [t]) child) :
    f.About base node := by
  obtain ⟨inner, hpointer, target, hget⟩ := h
  refine ⟨t :: inner, ?_, target, (FieldPath.get?_cons hleads _).trans hget⟩
  rw [hpointer, List.append_assoc, List.singleton_append]

theorem of_pointer (h : f.pointer = base.pointer) : f.About base node :=
  ⟨[], by rw [h, List.append_nil], node, rfl⟩

theorem of_findUnless {ok : Bool} {message : String} (h : f ∈ Schema.findUnless ok base message) :
    f.About base node := by
  unfold Schema.findUnless at h
  split at h
  · cases h
  · obtain rfl := List.mem_singleton.mp h
    exact of_pointer rfl

end SchemaFailure.About

namespace Schema

mutual

/-- Every failure of a schema is at a node of the document. -/
theorem about_of_mem_failures : (schema : Schema) → {base : FieldPath} → {node : Json} →
    node.KeysOnce → {f : SchemaFailure} → f ∈ schema.failures base node → f.About base node
  | .always, _, _, _, _, hf => by cases hf
  | .never, _, _, _, _, hf => by
    obtain rfl := List.mem_singleton.mp hf
    exact .of_pointer rfl
  | .keywords checks, _, _, honce, _, hf => about_of_mem_failuresOfAll checks honce hf

theorem about_of_mem_failuresOfAll : (checks : List SchemaKeyword) → {base : FieldPath} →
    {node : Json} → node.KeysOnce → {f : SchemaFailure} → f ∈ failuresOfAll checks base node →
    f.About base node
  | [], _, _, _, _, hf => by cases hf
  | k :: ks, _, _, honce, _, hf => by
    rw [failuresOfAll, List.mem_append] at hf
    rcases hf with hf | hf
    · exact about_of_mem_failuresOf k honce hf
    · exact about_of_mem_failuresOfAll ks honce hf

theorem about_of_mem_failuresOf : (k : SchemaKeyword) → {base : FieldPath} → {node : Json} →
    node.KeysOnce → {f : SchemaFailure} → f ∈ failuresOf k base node → f.About base node
  | .type _, _, _, _, _, hf => .of_findUnless hf
  | .required names, base, node, honce, f, hf => by
    cases node with
    | object members =>
      obtain ⟨name, -, rfl⟩ := List.mem_map.mp hf
      exact .of_pointer rfl
    | _ => cases hf
  | .properties schemas, _, node, honce, _, hf => by
    cases node with
    | object members => exact about_of_mem_failuresOfMembers schemas honce hf
    | _ => cases hf
  | .additional named schema, base, node, honce, f, hf => by
    cases node with
    | object members =>
      have hothers : f ∈ (members.filter (fun m => !named.contains m.1)).flatMap
          (fun m => failures schema (base ++ [.key m.1]) m.2) → f.About base (.object members) := by
        intro hf
        obtain ⟨m, hm, hf⟩ := List.mem_flatMap.mp hf
        cases honce with
        | object hkeys hmembers =>
          have hmem := (List.mem_filter.mp hm).1
          have hleads : Segment.Leads (.key m.1) (.object members) (.key m.1) m.2 :=
            .key (Json.KeysOnce.lookup_of_mem hkeys hmem)
          exact (about_of_mem_failures schema (hmembers m hmem) hf).out hleads
      cases schema with
      | never => exact .of_findUnless hf
      | always => exact hothers hf
      | keywords checks => exact hothers hf
    | _ => cases hf
  | .items schema, base, node, honce, f, hf => by
    cases node with
    | array items =>
      obtain ⟨⟨item, n⟩, hitem, hf⟩ := List.mem_flatMap.mp hf
      rw [List.mem_zipIdx_iff_getElem?] at hitem
      have hleads : Segment.Leads (.index n) (.array items) (.index n) item := .index hitem
      exact (about_of_mem_failures schema (honce.leads hleads) hf).out hleads
    | _ => cases hf
  | .uniqueItems, _, node, _, _, hf => by
    cases node with
    | array items => exact .of_findUnless hf
    | _ => cases hf
  | .count bound limit, _, node, _, _, hf => by
    rw [failuresOf] at hf
    split at hf
    · exact .of_findUnless hf
    · cases hf
  | .pattern _ _, _, node, _, _, hf => by
    cases node with
    | string s => exact .of_findUnless hf
    | _ => cases hf
  | .number _ _, _, node, _, _, hf => by
    cases node with
    | number n => exact .of_findUnless hf
    | _ => cases hf
  | .oneOfValues _, _, _, _, _, hf => .of_findUnless hf
  | .constant _, _, _, _, _, hf => .of_findUnless hf
  | .anyOf _, _, _, _, _, hf => .of_findUnless hf
  | .allOf schemas, _, _, honce, _, hf => about_of_mem_failuresOfEach schemas honce hf
  | .not _ _, _, _, _, _, hf => .of_findUnless hf

theorem about_of_mem_failuresOfMembers : (schemas : List (String × Schema)) → {base : FieldPath} →
    {members : List (String × Json)} → (Json.object members).KeysOnce → {f : SchemaFailure} →
    f ∈ failuresOfMembers schemas members base → f.About base (.object members)
  | [], _, _, _, _, hf => by cases hf
  | (name, schema) :: rest, base, members, honce, f, hf => by
    rw [failuresOfMembers, List.mem_append] at hf
    rcases hf with hf | hf
    · cases hvalue : members.lookup name with
      | none =>
        rw [hvalue] at hf
        cases hf
      | some value =>
        rw [hvalue] at hf
        have hleads : Segment.Leads (.key name) (.object members) (.key name) value := .key hvalue
        exact (about_of_mem_failures schema (honce.leads hleads) hf).out hleads
    · exact about_of_mem_failuresOfMembers rest honce hf

theorem about_of_mem_failuresOfEach : (schemas : List Schema) → {base : FieldPath} → {node : Json} →
    node.KeysOnce → {f : SchemaFailure} → f ∈ failuresOfEach schemas base node → f.About base node
  | [], _, _, _, _, hf => by cases hf
  | s :: ss, _, _, honce, _, hf => by
    rw [failuresOfEach, List.mem_append] at hf
    rcases hf with hf | hf
    · exact about_of_mem_failures s honce hf
    · exact about_of_mem_failuresOfEach ss honce hf

end

/-- Every failure that a schema finds in a document is at a place of it. -/
theorem exists_isAt_of_mem_failures {schema : Schema} {document : Json} (honce : document.KeysOnce)
    {f : SchemaFailure} (hf : f ∈ schema.failures [] document) : ∃ place, f.IsAt place document :=
  about_of_mem_failures schema honce hf

end Schema

namespace FieldPath

namespace Example

/-- A room with a number for a name, in a building whose name takes escapes. -/
def roomSeven : FieldPath := [.key "~01/", .key "7"]

def rooms : Json := .object [("~01/", .object [("7", .string "x")])]

/-- Every room of the building holds a number. -/
def roomsHoldNumbers : Schema := .keywords [.properties [("~01/", .keywords [.additional []
  (.keywords [.type [.number]])])]]

/-- The same as it is written. -/
def roomsSchema : SchemaDocument where
  source := .object [("properties", .object [("~01/", .object [("additionalProperties",
    .object [("type", .string "number")])])])]
  failures := roomsHoldNumbers.failures []

def wrongRoom : SchemaFailure := ⟨"/~001~1/7", none, "\"x\" is not of type \"number\""⟩

end Example

open Example in
/-- The report on the room is where no node is, though the room is there. -/
theorem a_numbered_room_is_not_found_again :
    roomSeven.isConcrete = true ∧ (∀ i, .index i ∈ roomSeven → i ≤ Text.maxWord64) ∧
    ofPointer roomSeven.pointer = [.key "~01/", .index 7] ∧
    (∀ f ∈ roomsSchema.failures rooms, ∃ place, f.IsAt place rooms) ∧
    wrongRoom.IsAt roomSeven rooms ∧ roomsSchema.issues rooms = [wrongRoom.issue] ∧
    get? wrongRoom.issue.location rooms = none := by
  have hconcrete : roomSeven.isConcrete = true := by decide
  have hindices : ∀ i, .index i ∈ roomSeven → i ≤ Text.maxWord64 := by simp [roomSeven]
  have honce : rooms.KeysOnce := by
    refine .object (by decide) ?_
    intro m hm
    obtain rfl := List.mem_singleton.mp hm
    refine .object (by decide) ?_
    intro m hm
    obtain rfl := List.mem_singleton.mp hm
    exact .string "x"
  have hback : ofPointer roomSeven.pointer = [.key "~01/", .index 7] := by decide
  have hfailures : roomsSchema.failures rooms = [wrongRoom] := by decide
  have hroom : wrongRoom.IsAt roomSeven rooms := ⟨by decide, .string "x", rfl⟩
  obtain ⟨-, -, hreports⟩ :=
    a_pointer_leads_back_unless_a_key_is_a_numeral roomSeven hconcrete hindices
  obtain ⟨hall, hreport⟩ := hreports roomsSchema rooms
  obtain ⟨-, hlost⟩ :=
    hreport wrongRoom (by rw [hfailures]; exact List.mem_singleton_self _) roomSeven hroom
  have hplace := hlost List.prefix_rfl (by rw [hback]; decide) []
  rw [List.append_nil] at hplace
  exact ⟨hconcrete, hindices, hback, fun f hf => Schema.exists_isAt_of_mem_failures honce hf,
    hroom, by rw [hall, hfailures]; rfl, hplace⟩

end FieldPath

end CauseLists
