-- The endings of a walk. A walk along two paths joined goes on from where the first one ended, a
-- node that was found is the node at its location, and what the strings of a document say has no
-- part in where a walk ends.
import CauseLists.FieldPath.Walk

namespace CauseLists

namespace Ending

@[simp] theorem under_nil (e : Ending) : e.under [] = e := by
  cases e <;> rfl

@[simp] theorem map_under_nil (endings : List Ending) :
    endings.map (Ending.under []) = endings := by
  simp only [funext under_nil, List.map_id']

@[simp] theorem under_under (outer inner : FieldPath) (e : Ending) :
    (e.under inner).under outer = e.under (outer ++ inner) := by
  cases e <;> simp [under]

/-- A node that is found from further out is found from further in, with a shorter location. -/
theorem under_eq_found {base location : FieldPath} {node : Json} {e : Ending}
    (h : e.under base = .found location node) :
    ∃ inner, e = .found inner node ∧ location = base ++ inner := by
  cases e with
  | found inner other =>
    obtain ⟨rfl, rfl⟩ := Ending.found.inj h
    exact ⟨inner, rfl, rfl⟩
  | stopped inner obstacle => cases h

/-- How a walk goes on from an ending. -/
def andThen (q : FieldPath) : Ending → List Ending
  | .found location node => q.resolveFrom node location
  | .stopped location obstacle => [.stopped location obstacle]

theorem andThen_under (q base : FieldPath) (e : Ending) :
    (e.under base).andThen q = (e.andThen q).map (Ending.under base) := by
  cases e with
  | found location node =>
    show (q.walk node).map (under (base ++ location)) =
      ((q.walk node).map (under location)).map (under base)
    rw [List.map_map]
    exact List.map_congr_left (fun e _ => (under_under base location e).symm)
  | stopped location obstacle => rfl

end Ending

namespace FieldPath

/-! ## Paths joined -/

theorem flatMap_andThen_under (q base : FieldPath) (endings : List Ending) :
    (endings.map (Ending.under base)).flatMap (Ending.andThen q) =
      (endings.flatMap (Ending.andThen q)).map (Ending.under base) := by
  rw [List.flatMap_map, List.map_flatMap]
  exact congrArg (endings.flatMap ·) (funext (Ending.andThen_under q base))

/-- A walk along two paths joined is a walk along the second from every ending of the first. -/
theorem walk_append (p q : FieldPath) (node : Json) :
    (p ++ q).walk node = (p.walk node).flatMap (Ending.andThen q) := by
  induction p generalizing node with
  | nil => simp [walk, Ending.andThen, resolveFrom]
  | cons s rest ih =>
    cases s with
    | key name =>
      cases node with
      | object members =>
        cases hchild : members.lookup name with
        | none => simp [walk, hchild, Ending.andThen]
        | some child => simp [walk, hchild, ih, flatMap_andThen_under]
      | _ => rfl
    | index i =>
      cases node with
      | array items =>
        cases hitem : items[i]? with
        | none => simp [walk, hitem, Ending.andThen]
        | some item => simp [walk, hitem, ih, flatMap_andThen_under]
      | _ => rfl
    | each =>
      cases node with
      | array items => simp [walk, ih, List.flatMap_assoc, flatMap_andThen_under]
      | _ => rfl

/-! ## Nodes that are found -/

theorem mem_locate {p location : FieldPath} {document : Json} :
    location ∈ p.locate document ↔ ∃ node, .found location node ∈ p.walk document := by
  have hresolve : p.resolve document = p.walk document := by simp [resolve, resolveFrom]
  rw [locate, hresolve, List.mem_filterMap]
  constructor
  · rintro ⟨e, he, hfound⟩
    cases e with
    | found other node =>
      obtain rfl : other = location := by simpa [Ending.found?] using hfound
      exact ⟨node, he⟩
    | stopped other obstacle => cases hfound
  · rintro ⟨node, hnode⟩
    exact ⟨_, hnode, rfl⟩

end FieldPath

/-- A segment leads from a node to one that it holds, and the last segment of whose location is
known. -/
inductive Segment.Leads : Segment → Json → Segment → Json → Prop
  | key {name : String} {members : List (String × Json)} {child : Json}
    (hchild : members.lookup name = some child) :
    Leads (.key name) (.object members) (.key name) child
  | index {i : Nat} {items : List Json} {item : Json} (hitem : items[i]? = some item) :
    Leads (.index i) (.array items) (.index i) item
  | each {i : Nat} {items : List Json} {item : Json} (hitem : items[i]? = some item) :
    Leads .each (.array items) (.index i) item

namespace FieldPath

/-- Where a walk from a node further in ends, one from further out ends as well. -/
theorem mem_walk_cons {s t : Segment} {node child : Json} (h : s.Leads node t child)
    {rest : FieldPath} {e : Ending} (he : e ∈ rest.walk child) :
    e.under [t] ∈ walk (s :: rest) node := by
  cases h with
  | key hchild =>
    simp only [walk, hchild]
    exact List.mem_map_of_mem he
  | index hitem =>
    simp only [walk, hitem]
    exact List.mem_map_of_mem he
  | each hitem =>
    simp only [walk, List.mem_flatMap, Prod.exists, List.mem_zipIdx_iff_getElem?]
    exact ⟨_, _, hitem, List.mem_map_of_mem he⟩

/-- A walk that finds something has found it from a node further in. -/
theorem found_of_walk_cons {s : Segment} {rest location : FieldPath} {node target : Json}
    (h : .found location target ∈ walk (s :: rest) node) :
    ∃ t child inner, s.Leads node t child ∧ .found inner target ∈ rest.walk child ∧
      location = t :: inner := by
  have hinside : ∀ {t child}, s.Leads node t child →
      .found location target ∈ (rest.walk child).map (Ending.under [t]) →
      ∃ t child inner, s.Leads node t child ∧ .found inner target ∈ rest.walk child ∧
        location = t :: inner := by
    intro t child hleads hmem
    obtain ⟨e, he, hunder⟩ := List.mem_map.mp hmem
    obtain ⟨inner, rfl, rfl⟩ := Ending.under_eq_found hunder
    exact ⟨t, child, inner, hleads, he, rfl⟩
  cases s with
  | key name =>
    cases node with
    | object members =>
      cases hchild : members.lookup name with
      | none => simp [walk, hchild] at h
      | some child =>
        simp only [walk, hchild] at h
        exact hinside (.key hchild) h
    | _ => simp [walk] at h
  | index i =>
    cases node with
    | array items =>
      cases hitem : items[i]? with
      | none => simp [walk, hitem] at h
      | some item =>
        simp only [walk, hitem] at h
        exact hinside (.index hitem) h
    | _ => simp [walk] at h
  | each =>
    cases node with
    | array items =>
      simp only [walk, List.mem_flatMap, Prod.exists, List.mem_zipIdx_iff_getElem?] at h
      obtain ⟨item, i, hitem, h⟩ := h
      exact hinside (.each hitem) h
    | _ => simp [walk] at h

/-- A node that is found is the one at its location. -/
theorem get?_of_found {p location : FieldPath} {node target : Json}
    (h : .found location target ∈ p.walk node) : location.get? node = some target := by
  induction p generalizing node location with
  | nil =>
    obtain ⟨rfl, rfl⟩ := Ending.found.inj (List.mem_singleton.mp h)
    rfl
  | cons s rest ih =>
    obtain ⟨t, child, inner, hleads, hinner, rfl⟩ := found_of_walk_cons h
    cases hleads with
    | key hchild => simp [get?, hchild, ih hinner]
    | index hitem => simp [get?, hitem, ih hinner]
    | each hitem => simp [get?, hitem, ih hinner]

end FieldPath

/-! ## Other strings -/

namespace Json

theorem lookup_mapStringsMembers (f : String → String) (members : List (String × Json))
    (name : String) : (mapStringsMembers f members).lookup name =
      (members.lookup name).map (mapStrings f) := by
  induction members with
  | nil => rfl
  | cons m rest ih =>
    obtain ⟨k, x⟩ := m
    simp only [mapStringsMembers, List.lookup_cons]
    split <;> simp [ih]

theorem mapStringsItems_eq_map (f : String → String) (items : List Json) :
    mapStringsItems f items = items.map (mapStrings f) := by
  induction items with
  | nil => rfl
  | cons x rest ih => rw [mapStringsItems, ih, List.map_cons]

theorem kind_mapStrings (f : String → String) (json : Json) :
    (json.mapStrings f).kind = json.kind := by
  cases json <;> rfl

end Json

/-- The same ending in a document with other strings. -/
def Ending.mapStrings (f : String → String) : Ending → Ending
  | .found location node => .found location (node.mapStrings f)
  | .stopped location obstacle => .stopped location obstacle

theorem Ending.mapStrings_under (f : String → String) (base : FieldPath) (e : Ending) :
    (e.under base).mapStrings f = (e.mapStrings f).under base := by
  cases e <;> rfl

namespace FieldPath

theorem map_mapStrings_under (f : String → String) (base : FieldPath) (endings : List Ending) :
    (endings.map (Ending.under base)).map (Ending.mapStrings f) =
      (endings.map (Ending.mapStrings f)).map (Ending.under base) := by
  rw [List.map_map, List.map_map]
  exact List.map_congr_left (fun e _ => Ending.mapStrings_under f base e)

/-- A walk through a document with other strings ends in the same places. -/
theorem walk_mapStrings (f : String → String) (p : FieldPath) (node : Json) :
    p.walk (node.mapStrings f) = (p.walk node).map (Ending.mapStrings f) := by
  induction p generalizing node with
  | nil => rfl
  | cons s rest ih =>
    cases s with
    | key name =>
      cases node with
      | object members =>
        cases hchild : members.lookup name with
        | none => simp [walk, Json.mapStrings, Json.lookup_mapStringsMembers, hchild,
            Ending.mapStrings]
        | some child =>
          simp only [walk, Json.mapStrings, Json.lookup_mapStringsMembers, hchild, Option.map_some,
            ih, map_mapStrings_under]
      | _ => rfl
    | index i =>
      cases node with
      | array items =>
        cases hitem : items[i]? with
        | none => simp [walk, Json.mapStrings, Json.mapStringsItems_eq_map, hitem,
            Ending.mapStrings]
        | some item =>
          simp only [walk, Json.mapStrings, Json.mapStringsItems_eq_map, List.getElem?_map, hitem,
            Option.map_some, ih, map_mapStrings_under]
      | _ => rfl
    | each =>
      cases node with
      | array items =>
        simp only [walk, Json.mapStrings, Json.mapStringsItems_eq_map, List.zipIdx_map,
          List.flatMap_map, List.map_flatMap, map_mapStrings_under, ← ih]
        rfl
      | _ => rfl

/-- A path reaches the same locations in a document with other strings. -/
theorem locate_mapStrings (f : String → String) (p : FieldPath) (document : Json) :
    p.locate (document.mapStrings f) = p.locate document := by
  have hwalk : ∀ document, p.locate document =
      (p.walk document).filterMap (fun e => e.found?.map Prod.fst) := by
    intro document
    simp [locate, resolve, resolveFrom]
  have hfound : (fun e : Ending => e.found?.map Prod.fst) ∘ Ending.mapStrings f =
      fun e => e.found?.map Prod.fst := by
    funext e
    cases e <;> rfl
  rw [hwalk, hwalk, walk_mapStrings, List.filterMap_map, hfound]

/-- The node at a location of a document with other strings. -/
theorem get?_mapStrings (f : String → String) (p : FieldPath) (node : Json) :
    p.get? (node.mapStrings f) = (p.get? node).map (Json.mapStrings f) := by
  induction p generalizing node with
  | nil => rfl
  | cons s rest ih =>
    cases s with
    | key name =>
      cases node with
      | object members =>
        simp only [get?, Json.mapStrings, Json.lookup_mapStringsMembers]
        cases members.lookup name with
        | none => rfl
        | some child => exact ih child
      | _ => rfl
    | index i =>
      cases node with
      | array items =>
        simp only [get?, Json.mapStrings, Json.mapStringsItems_eq_map, List.getElem?_map]
        cases items[i]? with
        | none => rfl
        | some item => exact ih item
      | _ => rfl
    | each => cases node <;> rfl

end FieldPath

end CauseLists
