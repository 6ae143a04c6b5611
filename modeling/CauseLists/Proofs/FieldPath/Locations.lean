-- What the endings of a walk say of the document. The location of an ending follows the path step
-- by step, with an index for each step to every element; a lookup there, which knows nothing of
-- walks, finds the node that was found, or the node or the gap at which the walk could not go on.
import CauseLists.Proofs.FieldPath.Endings
import CauseLists.Proofs.Json.Keys
import Mathlib.Data.List.Forall2

namespace CauseLists

/-! ## Locations of a pattern -/

/-- A step of a pattern stands for a step of a location. -/
inductive Segment.Covers : Segment → Segment → Prop
  | key (name : String) : Covers (.key name) (.key name)
  | index (i : Nat) : Covers (.index i) (.index i)
  | each (i : Nat) : Covers .each (.index i)

theorem Segment.Covers.container {s t : Segment} (h : s.Covers t) : t.container = s.container := by
  cases h <;> rfl

theorem Segment.Leads.covers {s t : Segment} {node child : Json} (h : s.Leads node t child) :
    s.Covers t := by
  cases h with
  | key hchild => exact .key _
  | index hitem => exact .index _
  | each hitem => exact .each _

theorem Segment.Leads.kind {s t : Segment} {node child : Json} (h : s.Leads node t child) :
    node.kind = s.container := by
  cases h <;> rfl

/-- What a step leads to has each key once as well. -/
theorem Json.KeysOnce.leads {s t : Segment} {node child : Json} (h : node.KeysOnce)
    (hleads : s.Leads node t child) : child.KeysOnce := by
  cases hleads with
  | @key name members child hchild =>
    cases h with
    | object _ hmembers =>
      obtain ⟨before, after, rfl, -⟩ := List.lookup_eq_some_iff.mp hchild
      exact hmembers _ (List.mem_append_right _ List.mem_cons_self)
  | index hitem =>
    cases h with
    | array hitems => exact hitems _ (List.mem_of_getElem? hitem)
  | each hitem =>
    cases h with
    | array hitems => exact hitems _ (List.mem_of_getElem? hitem)

namespace FieldPath

/-- A pattern stands for a location, step by step. -/
abbrev Covers (p location : FieldPath) : Prop := List.Forall₂ Segment.Covers p location

/-- A location that a pattern stands for leads to one place only. -/
theorem Covers.isConcrete {p location : FieldPath} (h : p.Covers location) :
    location.isConcrete = true := by
  have heach : .each ∉ location := by
    intro hmem
    induction h with
    | nil => cases hmem
    | cons hstep _ ih =>
      rcases List.mem_cons.mp hmem with rfl | hmem
      · cases hstep
      · exact ih hmem
  simpa [FieldPath.isConcrete] using heach

theorem get?_cons {s t : Segment} {node child : Json} (h : s.Leads node t child)
    (rest : FieldPath) : get? (t :: rest) node = rest.get? child := by
  cases h with
  | key hchild => simp [get?, hchild]
  | index hitem => simp [get?, hitem]
  | each hitem => simp [get?, hitem]

/-- A node that is found in a document with each key once has each key once. -/
theorem keysOnce_of_found {p location : FieldPath} {node target : Json} (honce : node.KeysOnce)
    (h : .found location target ∈ p.walk node) : target.KeysOnce := by
  induction p generalizing node location with
  | nil =>
    obtain ⟨rfl, rfl⟩ := Ending.found.inj (List.mem_singleton.mp h)
    exact honce
  | cons s rest ih =>
    obtain ⟨t, child, inner, hleads, hinner, rfl⟩ := found_of_walk_cons h
    exact ih (honce.leads hleads) hinner

end FieldPath

/-! ## Endings -/

/-- What an ending of a walk along a path from a node says of that node. -/
inductive Ending.Tells (p : FieldPath) (node : Json) : Ending → Prop
  | found {location : FieldPath} {target : Json} (hcovers : p.Covers location)
    (hget : location.get? node = some target) : Tells p node (.found location target)
  | absent {before after inner : FieldPath} {s t : Segment} {holder : Json}
    (hpath : p = before ++ s :: after) (hcovers : before.Covers inner) (hstep : s.Covers t)
    (hget : inner.get? node = some holder) (hkind : holder.kind = t.container)
    (hgap : FieldPath.get? [t] holder = none) : Tells p node (.stopped (inner ++ [t]) .absent)
  | null {before after location : FieldPath} {s : Segment} (hpath : p = before ++ s :: after)
    (hcovers : before.Covers location) (hget : location.get? node = some .null) :
    Tells p node (.stopped location .null)
  | wrongKind {before after location : FieldPath} {s : Segment} {target : Json}
    (hpath : p = before ++ s :: after) (hcovers : before.Covers location)
    (hget : location.get? node = some target) :
    Tells p node (.stopped location (.wrongKind s.container target.kind))

namespace Ending

/-- What is told from a node further in is told from one further out. -/
theorem Tells.under {s t : Segment} {rest : FieldPath} {node child : Json} {e : Ending}
    (hleads : s.Leads node t child) (h : e.Tells rest child) :
    (e.under [t]).Tells (s :: rest) node := by
  cases h with
  | found hcovers hget =>
    exact .found (.cons hleads.covers hcovers) ((FieldPath.get?_cons hleads _).trans hget)
  | @absent before after inner s' t' holder hpath hcovers hstep hget hkind hgap =>
    have hpath' : s :: rest = (s :: before) ++ s' :: after := congrArg (s :: ·) hpath
    exact .absent hpath' (.cons hleads.covers hcovers) hstep
      ((FieldPath.get?_cons hleads inner).trans hget) hkind hgap
  | @null before after location s' hpath hcovers hget =>
    have hpath' : s :: rest = (s :: before) ++ s' :: after := congrArg (s :: ·) hpath
    exact .null hpath' (.cons hleads.covers hcovers) ((FieldPath.get?_cons hleads _).trans hget)
  | @wrongKind before after location s' target hpath hcovers hget =>
    have hpath' : s :: rest = (s :: before) ++ s' :: after := congrArg (s :: ·) hpath
    exact .wrongKind hpath' (.cons hleads.covers hcovers)
      ((FieldPath.get?_cons hleads _).trans hget)

/-- A walk that ends at its first step, at a node that is no container for it. -/
theorem tells_obstacle (s : Segment) (rest : FieldPath) (node : Json) :
    (Ending.stopped [] (s.obstacle node)).Tells (s :: rest) node := by
  have hpath : s :: rest = [] ++ s :: rest := rfl
  unfold Segment.obstacle
  cases node with
  | null => exact .null hpath .nil rfl
  | _ => exact .wrongKind hpath .nil rfl

/-- A walk that ends at its first step, in a container without such a part. -/
theorem tells_absent {s t : Segment} (rest : FieldPath) {node : Json} (hstep : s.Covers t)
    (hkind : node.kind = t.container) (hgap : FieldPath.get? [t] node = none) :
    (Ending.stopped [t] .absent).Tells (s :: rest) node := by
  have hpath : s :: rest = [] ++ s :: rest := rfl
  exact .absent hpath .nil hstep rfl hkind hgap

end Ending

/-- Every ending of a walk tells the truth. -/
theorem FieldPath.tells_of_mem_walk {p : FieldPath} {node : Json} {e : Ending}
    (he : e ∈ p.walk node) : e.Tells p node := by
  -- Over the path: a first step leads further in, or the walk ends at it.
  induction p generalizing node e with
  | nil =>
    obtain rfl := List.mem_singleton.mp he
    exact .found .nil rfl
  | cons s rest ih =>
    have hinside : ∀ {t child}, s.Leads node t child →
        e ∈ (walk rest child).map (Ending.under [t]) → e.Tells (s :: rest) node := by
      intro t child hleads hmem
      obtain ⟨inner, hinner, rfl⟩ := List.mem_map.mp hmem
      exact (ih hinner).under hleads
    cases s with
    | key name =>
      cases node with
      | object members =>
        cases hchild : members.lookup name with
        | none =>
          simp only [walk, hchild] at he
          obtain rfl := List.mem_singleton.mp he
          exact Ending.tells_absent rest (.key name) rfl (by simp [get?, hchild])
        | some child =>
          simp only [walk, hchild] at he
          exact hinside (.key hchild) he
      | _ =>
        obtain rfl := List.mem_singleton.mp he
        exact Ending.tells_obstacle _ _ _
    | index i =>
      cases node with
      | array items =>
        cases hitem : items[i]? with
        | none =>
          simp only [walk, hitem] at he
          obtain rfl := List.mem_singleton.mp he
          exact Ending.tells_absent rest (.index i) rfl (by simp [get?, hitem])
        | some item =>
          simp only [walk, hitem] at he
          exact hinside (.index hitem) he
      | _ =>
        obtain rfl := List.mem_singleton.mp he
        exact Ending.tells_obstacle _ _ _
    | each =>
      cases node with
      | array items =>
        simp only [walk, List.mem_flatMap, Prod.exists, List.mem_zipIdx_iff_getElem?] at he
        obtain ⟨item, i, hitem, he⟩ := he
        exact hinside (.each hitem) he
      | _ =>
        obtain rfl := List.mem_singleton.mp he
        exact Ending.tells_obstacle _ _ _

end CauseLists
