-- A change to every node that a path reaches. A walk afterwards ends in the same places, at nodes
-- that are changed; a lookup at any place finds what the change made of a node above it, or a node
-- below which something was changed, or what was there before.
import CauseLists.Proofs.FieldPath.Locations
import CauseLists.Proofs.FieldPath.Removal

namespace CauseLists

/-- The same ending with a change made to the node. -/
def Ending.mapNode (f : Json → Json) : Ending → Ending
  | .found location node => .found location (f node)
  | .stopped location obstacle => .stopped location obstacle

theorem Ending.mapNode_under (f : Json → Json) (base : FieldPath) (e : Ending) :
    (e.under base).mapNode f = (e.mapNode f).under base := by
  cases e <;> rfl

/-- A node without what it holds: its kind, and the names of its members. -/
def Json.outline : Json → Kind × List String
  | .object members => (.object, members.map Prod.fst)
  | node => (node.kind, [])

namespace FieldPath

variable {f : Json → Json}

/-- A document with a change made to every node that a path reaches. -/
def change (f : Json → Json) : FieldPath → Json → Json
  | [], node => f node
  | .key name :: rest, .object members =>
    match members.lookup name with
    | some child => .object (setMember name (change f rest child) members)
    | none => .object members
  | .index i :: rest, .array items => .array (items.modify i (change f rest))
  | .each :: rest, .array items => .array (items.map (change f rest))
  | _ :: _, node => node

/-! ## Walking afterwards -/

/-- A step leads where it led, to a node that is changed below. -/
theorem leads_change {s t : Segment} {node child : Json} (h : s.Leads node t child)
    (rest : FieldPath) : s.Leads (change f (s :: rest) node) t (change f rest child) := by
  cases h with
  | key hchild =>
    simp only [change, hchild]
    exact .key (lookup_setMember_self hchild)
  | index hitem =>
    simp only [change]
    exact .index (by simp [hitem])
  | each hitem =>
    simp only [change]
    exact .each (by simp [hitem])

theorem map_mapNode_under (base : FieldPath) (endings : List Ending) :
    (endings.map (Ending.under base)).map (Ending.mapNode f) =
      (endings.map (Ending.mapNode f)).map (Ending.under base) := by
  rw [List.map_map, List.map_map]
  exact List.map_congr_left (fun e _ => Ending.mapNode_under f base e)

theorem walk_change (p : FieldPath) (node : Json) :
    p.walk (change f p node) = (p.walk node).map (Ending.mapNode f) := by
  induction p generalizing node with
  | nil => rfl
  | cons s rest ih =>
    cases s with
    | key name =>
      cases node with
      | object members =>
        cases hchild : members.lookup name with
        | none => simp [walk, change, hchild, Ending.mapNode]
        | some child =>
          simp only [walk, change, hchild, lookup_setMember_self hchild, ih, map_mapNode_under]
      | _ => rfl
    | index i =>
      cases node with
      | array items =>
        cases hitem : items[i]? with
        | none => simp [walk, change, hitem, Ending.mapNode]
        | some item => simp [walk, change, hitem, ih, Ending.mapNode_under, Function.comp_def]
      | _ => rfl
    | each =>
      cases node with
      | array items =>
        simp only [walk, change, List.zipIdx_map, List.flatMap_map, List.map_flatMap,
          map_mapNode_under, ← ih]
        rfl
      | _ => rfl

theorem found_change {p location : FieldPath} {node target : Json}
    (h : .found location target ∈ p.walk (change f p node)) :
    ∃ before, .found location before ∈ p.walk node ∧ target = f before := by
  rw [walk_change] at h
  obtain ⟨e, he, hmap⟩ := List.mem_map.mp h
  cases e with
  | found place before =>
    obtain ⟨rfl, rfl⟩ := Ending.found.inj hmap
    exact ⟨before, he, rfl⟩
  | stopped place obstacle => cases hmap

/-! ## Looking up afterwards -/

/-- What is at a place before and after a change. -/
inductive Changed (f : Json → Json) (p : FieldPath) (node : Json) (place : FieldPath) :
    Option Json → Option Json → Prop
  /-- A node that the path reaches is at the place or above it. -/
  | below {location inner : FieldPath} {target : Json}
    (hfound : .found location target ∈ p.walk node) (hplace : place = location ++ inner) :
    Changed f p node place (inner.get? target) (inner.get? (f target))
  /-- The path goes on below the place. -/
  | above {s : Segment} {rest : FieldPath} {target : Json}
    (hfound : ∀ inner reached, .found inner reached ∈ walk (s :: rest) target →
      .found (place ++ inner) reached ∈ p.walk node) :
    Changed f p node place (some target) (some (change f (s :: rest) target))
  | aside {found : Option Json} : Changed f p node place found found

theorem Changed.cons {s t : Segment} {rest place : FieldPath} {node child : Json}
    {before after : Option Json} (hleads : s.Leads node t child)
    (h : Changed f rest child place before after) :
    Changed f (s :: rest) node (t :: place) before after := by
  cases h with
  | below hfound hplace =>
    exact .below (mem_walk_cons hleads hfound) (congrArg (t :: ·) hplace)
  | above hfound =>
    exact .above fun inner reached hmem => mem_walk_cons hleads (hfound inner reached hmem)
  | aside => exact .aside

/-- The first step of a path leads to the first step of a place, or nothing changes behind it. -/
theorem leads_or_same (s t : Segment) (rest place : FieldPath) (node : Json) :
    (∃ child, s.Leads node t child) ∨
      get? (t :: place) (change f (s :: rest) node) = get? (t :: place) node := by
  cases s with
  | key name =>
    cases node with
    | object members =>
      cases hchild : members.lookup name with
      | none => exact .inr (by simp only [change, hchild])
      | some child =>
        by_cases ht : t = .key name
        · exact .inl ⟨child, ht ▸ .key hchild⟩
        · refine .inr ?_
          simp only [change, hchild]
          cases t with
          | key other =>
            have hne : other ≠ name := fun hsame => ht (congrArg Segment.key hsame)
            simp only [get?, lookup_setMember_of_ne hne]
          | _ => rfl
    | _ => exact .inr rfl
  | index i =>
    cases node with
    | array items =>
      cases t with
      | index j =>
        by_cases hj : j = i
        · subst hj
          cases hitem : items[j]? with
          | none => exact .inr (by simp [change, get?, hitem])
          | some item => exact .inl ⟨item, .index hitem⟩
        · exact .inr (by simp [change, get?, Ne.symm hj])
      | _ => exact .inr rfl
    | _ => exact .inr rfl
  | each =>
    cases node with
    | array items =>
      cases t with
      | index j =>
        cases hitem : items[j]? with
        | none => exact .inr (by simp [change, get?, hitem])
        | some item => exact .inl ⟨item, .each hitem⟩
      | _ => exact .inr rfl
    | _ => exact .inr rfl

theorem changed_get? (p place : FieldPath) (node : Json) :
    Changed f p node place (place.get? node) (place.get? (change f p node)) := by
  -- Both paths go down together, until they part or one of them ends.
  induction p generalizing place node with
  | nil => exact .below (List.mem_singleton_self _) rfl
  | cons s rest ih =>
    cases place with
    | nil => exact .above fun inner reached hmem => hmem
    | cons t place =>
      rcases leads_or_same s t rest place node with ⟨child, hleads⟩ | hsame
      · rw [get?_cons hleads, get?_cons (leads_change hleads rest)]
        exact (ih place child).cons hleads
      · rw [hsame]
        exact .aside

/-! ## What stays -/

/-- A change that leaves every node that is reached as it is changes nothing. -/
theorem change_eq_self {p : FieldPath} {node : Json}
    (h : ∀ location target, .found location target ∈ p.walk node → f target = target) :
    change f p node = node := by
  induction p generalizing node with
  | nil => exact h [] node (List.mem_singleton_self _)
  | cons s rest ih =>
    have hinside : ∀ {t child}, s.Leads node t child → change f rest child = child :=
      fun hleads => ih fun location target hmem => h _ target (mem_walk_cons hleads hmem)
    cases s with
    | key name =>
      cases node with
      | object members =>
        cases hchild : members.lookup name with
        | none => simp only [change, hchild]
        | some child => simp only [change, hchild, hinside (.key hchild), setMember_self hchild]
      | _ => rfl
    | index i =>
      cases node with
      | array items =>
        have hitems : items.modify i (change f rest) = items := by
          apply List.ext_getElem?
          intro j
          rw [List.getElem?_modify]
          cases hitem : items[j]? with
          | none => rfl
          | some item =>
            by_cases hj : i = j
            · subst hj
              simp [hinside (.index hitem)]
            · simp [hj]
        exact congrArg Json.array hitems
      | _ => rfl
    | each =>
      cases node with
      | array items =>
        have hitems : items.map (change f rest) = items.map id := by
          apply List.map_congr_left
          intro item hmem
          obtain ⟨i, hitem⟩ := List.mem_iff_getElem?.mp hmem
          exact hinside (.each hitem)
        rw [List.map_id] at hitems
        exact congrArg Json.array hitems
      | _ => rfl

/-- A node that is changed further down only keeps its outline. -/
theorem outline_change (s : Segment) (rest : FieldPath) (node : Json) :
    (change f (s :: rest) node).outline = node.outline := by
  cases s with
  | key name =>
    cases node with
    | object members =>
      cases hchild : members.lookup name with
      | none => simp only [change, hchild]
      | some child => simp only [change, hchild, Json.outline, names_setMember]
    | _ => rfl
  | index i => cases node <;> rfl
  | each => cases node <;> rfl

end FieldPath

end CauseLists
