-- What a path reaches, said without following it: one clause for each kind of step. A pattern
-- reaches a node if some branch leads to it, and it always leads to good nodes if every branch
-- arrives and arrives at a good one.
import CauseLists.FieldPath.Walk

namespace CauseLists

/-- The node that a branch arrived at. -/
def Ending.node? : Ending → Option Json
  | .found _ node => some node
  | .stopped _ _ => none

theorem Ending.node?_under (base : FieldPath) (e : Ending) : (e.under base).node? = e.node? := by
  cases e <;> rfl

namespace FieldPath

/-- Some branch of a path leads from a node to another one. -/
def Reaches : FieldPath → Json → Json → Prop
  | [], node, target => target = node
  | .key name :: rest, node, target =>
    ∃ child, node.member? name = some child ∧ Reaches rest child target
  | .index i :: rest, node, target =>
    ∃ item, node.element? i = some item ∧ Reaches rest item target
  | .each :: rest, node, target =>
    ∃ items, node = .array items ∧ ∃ item ∈ items, Reaches rest item target

/-- Every branch of a path arrives, at a node with a property. -/
def Always (good : Json → Prop) : FieldPath → Json → Prop
  | [], node => good node
  | .key name :: rest, node => ∃ child, node.member? name = some child ∧ Always good rest child
  | .index i :: rest, node => ∃ item, node.element? i = some item ∧ Always good rest item
  | .each :: rest, node => ∃ items, node = .array items ∧ ∀ item ∈ items, Always good rest item

/-! ## Arrivals -/

/-- Where each branch of a path arrives, if it does. -/
def arrivals (p : FieldPath) (node : Json) : List (Option Json) := (p.walk node).map Ending.node?

/-- The base of the locations has no part in where a branch arrives. -/
theorem map_node?_resolveFrom (p : FieldPath) (node : Json) (base : FieldPath) :
    (p.resolveFrom node base).map Ending.node? = p.arrivals node := by
  rw [resolveFrom, arrivals, List.map_map]
  exact List.map_congr_left (fun e _ => Ending.node?_under base e)

theorem map_node?_under (p base : FieldPath) (node : Json) :
    ((p.walk node).map (Ending.under base)).map Ending.node? = p.arrivals node :=
  map_node?_resolveFrom p node base

theorem arrivals_key (name : String) (rest : FieldPath) (node : Json) :
    arrivals (.key name :: rest) node =
      match node.member? name with
      | some child => arrivals rest child
      | none => [none] := by
  cases node with
  | object members =>
    cases hchild : members.lookup name with
    | none => simp [arrivals, walk, Json.member?, hchild, Ending.node?]
    | some child =>
      have hunder := map_node?_under rest [.key name] child
      simpa [arrivals, walk, Json.member?, hchild] using hunder
  | _ => rfl

theorem arrivals_index (i : Nat) (rest : FieldPath) (node : Json) :
    arrivals (.index i :: rest) node =
      match node.element? i with
      | some item => arrivals rest item
      | none => [none] := by
  cases node with
  | array items =>
    cases hitem : items[i]? with
    | none => simp [arrivals, walk, Json.element?, hitem, Ending.node?]
    | some item =>
      have hunder := map_node?_under rest [.index i] item
      simpa [arrivals, walk, Json.element?, hitem] using hunder
  | _ => rfl

theorem arrivals_each (rest : FieldPath) (items : List Json) :
    arrivals (.each :: rest) (.array items) = items.flatMap (arrivals rest) := by
  have hitems : items.flatMap (arrivals rest) =
      (items.zipIdx.map Prod.fst).flatMap (arrivals rest) := by
    rw [List.zipIdx_map_fst]
  rw [hitems, List.flatMap_map, arrivals, walk, List.map_flatMap]
  congr 1
  funext ⟨item, i⟩
  exact map_node?_under rest [.index i] item

theorem arrivals_each_of_not_array (rest : FieldPath) {node : Json}
    (h : ∀ items, node ≠ .array items) : arrivals (.each :: rest) node = [none] := by
  cases node with
  | array items => exact absurd rfl (h items)
  | _ => rfl

theorem reaches_iff (p : FieldPath) (node target : Json) :
    p.Reaches node target ↔ some target ∈ p.arrivals node := by
  -- Over the path: each segment moves to a part of the node, so the node varies.
  induction p generalizing node with
  | nil => simp [Reaches, arrivals, walk, Ending.node?]
  | cons s rest ih =>
    cases s with
    | key name =>
      rw [arrivals_key, Reaches]
      cases node.member? name with
      | none => simp
      | some child => simp [ih]
    | index i =>
      rw [arrivals_index, Reaches]
      cases node.element? i with
      | none => simp
      | some item => simp [ih]
    | each =>
      rw [Reaches]
      by_cases harray : ∃ items, node = .array items
      · obtain ⟨items, rfl⟩ := harray
        simp [arrivals_each, ih]
      · rw [arrivals_each_of_not_array rest (not_exists.mp harray)]
        constructor
        · rintro ⟨items, hnode, -⟩
          exact absurd ⟨items, hnode⟩ harray
        · simp

theorem always_iff (good : Json → Prop) (p : FieldPath) (node : Json) :
    p.Always good node ↔
      ∀ arrival ∈ p.arrivals node, ∃ target, arrival = some target ∧ good target := by
  induction p generalizing node with
  | nil => simp [Always, arrivals, walk, Ending.node?]
  | cons s rest ih =>
    cases s with
    | key name =>
      rw [arrivals_key, Always]
      cases node.member? name with
      | none => simp
      | some child => simp [ih]
    | index i =>
      rw [arrivals_index, Always]
      cases node.element? i with
      | none => simp
      | some item => simp [ih]
    | each =>
      rw [Always]
      by_cases harray : ∃ items, node = .array items
      · obtain ⟨items, rfl⟩ := harray
        simp only [arrivals_each, List.forall_mem_flatMap, ← ih, Json.array.injEq,
          exists_eq_left']
      · rw [arrivals_each_of_not_array rest (not_exists.mp harray)]
        constructor
        · rintro ⟨items, hnode, -⟩
          exact absurd ⟨items, hnode⟩ harray
        · simp

/-- What is asked of every arrival beyond the first demand is asked of every node that is
reached. -/
theorem always_and_iff (good better : Json → Prop) (p : FieldPath) (node : Json) :
    p.Always (fun target => good target ∧ better target) node ↔
      p.Always good node ∧ ∀ target, p.Reaches node target → better target := by
  simp only [always_iff, reaches_iff]
  constructor
  · intro h
    refine ⟨?_, ?_⟩
    · intro arrival harrival
      obtain ⟨target, htarget, hgood, -⟩ := h arrival harrival
      exact ⟨target, htarget, hgood⟩
    · intro target htarget
      obtain ⟨_, hsame, -, hbetter⟩ := h (some target) htarget
      exact Option.some.inj hsame ▸ hbetter
  · rintro ⟨hgood, hbetter⟩ arrival harrival
    obtain ⟨target, rfl, htarget⟩ := hgood arrival harrival
    exact ⟨target, rfl, htarget, hbetter target harrival⟩

theorem Always.mono {good better : Json → Prop} (hmono : ∀ target, good target → better target)
    {p : FieldPath} {node : Json} (h : p.Always good node) : p.Always better node := by
  rw [always_iff] at h ⊢
  intro arrival harrival
  obtain ⟨target, htarget, hgood⟩ := h arrival harrival
  exact ⟨target, htarget, hmono target hgood⟩

/-! ## The last step -/

theorem splitLast?_eq_some_iff (p path : FieldPath) (s : Segment) :
    p.splitLast? = some (path, s) ↔ p = path ++ [s] := by
  unfold splitLast?
  constructor
  · intro h
    obtain ⟨last, hlast, hpair⟩ := Option.map_eq_some_iff.mp h
    obtain ⟨rfl, rfl⟩ := Prod.mk.inj hpair
    obtain ⟨before, rfl⟩ := List.getLast?_eq_some_iff.mp hlast
    rw [List.dropLast_concat]
  · rintro rfl
    simp

end FieldPath

end CauseLists
