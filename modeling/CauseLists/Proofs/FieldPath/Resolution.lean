-- What a path comes to in a document, told without following it. It finds exactly the nodes at the
-- locations that it stands for, and stops exactly where such a location comes to a gap, to a null
-- or to a node of the wrong kind. Its endings stand in the order of paths, and none lies above
-- another.
import CauseLists.Proofs.FieldPath.Locations
import CauseLists.Proofs.FieldPath.Order

namespace CauseLists

/-! ## Steps -/

/-- A step leads where a lookup of one step finds something. -/
theorem Segment.Covers.leads {s t : Segment} {rest : FieldPath} {node target : Json}
    (hstep : s.Covers t) (hget : FieldPath.get? (t :: rest) node = some target) :
    ∃ child, s.Leads node t child ∧ rest.get? child = some target := by
  cases hstep with
  | key name =>
    cases node with
    | object members =>
      obtain ⟨child, hchild, hrest⟩ := Option.bind_eq_some_iff.mp hget
      exact ⟨child, .key hchild, hrest⟩
    | _ => cases hget
  | index i =>
    cases node with
    | array items =>
      obtain ⟨item, hitem, hrest⟩ := Option.bind_eq_some_iff.mp hget
      exact ⟨item, .index hitem, hrest⟩
    | _ => cases hget
  | each i =>
    cases node with
    | array items =>
      obtain ⟨item, hitem, hrest⟩ := Option.bind_eq_some_iff.mp hget
      exact ⟨item, .each hitem, hrest⟩
    | _ => cases hget

theorem Segment.covers_self {s : Segment} (h : s ≠ .each) : s.Covers s := by
  cases s with
  | key name => exact .key name
  | index i => exact .index i
  | each => exact absurd rfl h

theorem Segment.Covers.ne_each {s : Segment} (h : s.Covers s) : s ≠ .each := by
  rintro rfl
  cases h

theorem Segment.obstacle_of_ne_null (s : Segment) {node : Json} (h : node ≠ .null) :
    s.obstacle node = .wrongKind s.container node.kind := by
  cases node <;> first | rfl | exact absurd rfl h

theorem Ending.location_under (base : FieldPath) (e : Ending) :
    (e.under base).location = base ++ e.location := by
  cases e <;> rfl

theorem Ending.found?_under (base : FieldPath) (e : Ending) :
    (e.under base).found? = e.found?.map (fun reached => (base ++ reached.1, reached.2)) := by
  cases e <;> rfl

theorem Ending.under_injective (base : FieldPath) : Function.Injective (Ending.under base) := by
  intro e f h
  cases e with
  | found location node =>
    obtain ⟨inner, rfl, hsame⟩ := under_eq_found h.symm
    rw [List.append_cancel_left hsame]
  | stopped location obstacle =>
    cases f with
    | found inner node => cases h
    | stopped inner other =>
      obtain ⟨hsame, rfl⟩ := Ending.stopped.inj h
      rw [List.append_cancel_left hsame]

/-- A walk cannot take a step from a node: it stops at the part that is not there, or at the node
itself. -/
inductive Segment.Blocked (s : Segment) (node : Json) : FieldPath → Obstacle → Prop
  | gap (hone : s ≠ .each) (hkind : node.kind = s.container)
    (hgap : FieldPath.get? [s] node = none) : Blocked s node [s] .absent
  | unfit (hkind : node.kind ≠ s.container) : Blocked s node [] (s.obstacle node)

namespace FieldPath

theorem isConcrete_cons (s : Segment) (rest : FieldPath) :
    isConcrete (s :: rest) = true ↔ s ≠ .each ∧ rest.isConcrete = true := by
  have hflip : Segment.each = s ↔ s = .each := eq_comm
  simp [isConcrete, hflip]

theorem covers_self {p : FieldPath} (h : p.isConcrete = true) : p.Covers p := by
  induction p with
  | nil => exact .nil
  | cons s rest ih =>
    obtain ⟨hone, hrest⟩ := (isConcrete_cons s rest).mp h
    exact .cons (Segment.covers_self hone) (ih hrest)

theorem stopped_of_blocked {s : Segment} {node : Json} {stop : FieldPath} {obstacle : Obstacle}
    (h : s.Blocked node stop obstacle) (rest : FieldPath) :
    .stopped stop obstacle ∈ walk (s :: rest) node := by
  cases h with
  | gap hone hkind hgap =>
    cases s with
    | key name =>
      cases node with
      | object members =>
        have hnone : members.lookup name = none := by simpa [get?] using hgap
        simp [walk, hnone]
      | _ => cases hkind
    | index i =>
      cases node with
      | array items =>
        have hnone : items[i]? = none := by simpa [get?] using hgap
        simp [walk, hnone]
      | _ => cases hkind
    | each => exact absurd rfl hone
  | unfit hkind =>
    cases s <;> cases node <;> first | exact absurd rfl hkind | exact List.mem_singleton_self _

/-- A walk that stops has stopped at its first step or at a node further in. -/
theorem stopped_of_walk_cons {s : Segment} {rest location : FieldPath} {node : Json}
    {obstacle : Obstacle} (h : .stopped location obstacle ∈ walk (s :: rest) node) :
    s.Blocked node location obstacle ∨ ∃ t child inner, s.Leads node t child ∧
      .stopped inner obstacle ∈ rest.walk child ∧ location = t :: inner := by
  have hinside : ∀ {t child}, s.Leads node t child →
      .stopped location obstacle ∈ (rest.walk child).map (Ending.under [t]) →
      ∃ t child inner, s.Leads node t child ∧ .stopped inner obstacle ∈ rest.walk child ∧
        location = t :: inner := by
    intro t child hleads hmem
    obtain ⟨e, he, hunder⟩ := List.mem_map.mp hmem
    cases e with
    | found inner target => cases hunder
    | stopped inner other =>
      obtain ⟨rfl, rfl⟩ := Ending.stopped.inj hunder
      exact ⟨t, child, inner, hleads, he, rfl⟩
  have hunfit : node.kind ≠ s.container →
      .stopped location obstacle ∈ [Ending.stopped [] (s.obstacle node)] →
      s.Blocked node location obstacle := by
    intro hkind hmem
    obtain ⟨rfl, rfl⟩ := Ending.stopped.inj (List.mem_singleton.mp hmem)
    exact .unfit hkind
  cases s with
  | key name =>
    cases node with
    | object members =>
      cases hchild : members.lookup name with
      | none =>
        simp only [walk, hchild] at h
        obtain ⟨rfl, rfl⟩ := Ending.stopped.inj (List.mem_singleton.mp h)
        exact .inl (.gap Segment.noConfusion rfl (by simp [get?, hchild]))
      | some child =>
        simp only [walk, hchild] at h
        exact .inr (hinside (.key hchild) h)
    | _ => exact .inl (hunfit Kind.noConfusion h)
  | index i =>
    cases node with
    | array items =>
      cases hitem : items[i]? with
      | none =>
        simp only [walk, hitem] at h
        obtain ⟨rfl, rfl⟩ := Ending.stopped.inj (List.mem_singleton.mp h)
        exact .inl (.gap Segment.noConfusion rfl (by simp [get?, hitem]))
      | some item =>
        simp only [walk, hitem] at h
        exact .inr (hinside (.index hitem) h)
    | _ => exact .inl (hunfit Kind.noConfusion h)
  | each =>
    cases node with
    | array items =>
      simp only [walk, List.mem_flatMap, Prod.exists, List.mem_zipIdx_iff_getElem?] at h
      obtain ⟨item, i, hitem, h⟩ := h
      exact .inr (hinside (.each hitem) h)
    | _ => exact .inl (hunfit Kind.noConfusion h)

/-! ## Hits -/

/-- A path finds exactly the nodes at the locations that it stands for. -/
theorem found_mem_walk_iff (p location : FieldPath) (node target : Json) :
    .found location target ∈ p.walk node ↔
      p.Covers location ∧ location.get? node = some target := by
  constructor
  · intro h
    cases tells_of_mem_walk h with
    | found hcovers hget => exact ⟨hcovers, hget⟩
  · rintro ⟨hcovers, hget⟩
    induction hcovers generalizing node with
    | nil =>
      obtain rfl := Option.some.inj hget
      exact List.mem_singleton_self _
    | cons hstep _ ih =>
      obtain ⟨child, hleads, hrest⟩ := hstep.leads hget
      exact mem_walk_cons hleads (ih child hrest)

/-! ## Misses -/

/-- A walk that stops has come to a node from which it cannot take its next step. -/
theorem stopped_mem_walk_iff (p location : FieldPath) (node : Json) (obstacle : Obstacle) :
    .stopped location obstacle ∈ p.walk node ↔
      ∃ (before after inner stop : FieldPath) (s : Segment) (holder : Json),
        p = before ++ s :: after ∧ .found inner holder ∈ before.walk node ∧
        s.Blocked holder stop obstacle ∧ location = inner ++ stop := by
  constructor
  · intro h
    induction p generalizing node location with
    | nil => cases List.mem_singleton.mp h
    | cons s rest ih =>
      rcases stopped_of_walk_cons h with hblocked | ⟨t, child, inner, hleads, hinner, rfl⟩
      · exact ⟨[], rest, [], location, s, node, rfl, List.mem_singleton_self _, hblocked, rfl⟩
      · obtain ⟨before, after, inner', stop, s', holder, rfl, hfound, hblocked, rfl⟩ :=
          ih _ _ hinner
        exact ⟨s :: before, after, t :: inner', stop, s', holder, rfl,
          mem_walk_cons hleads hfound, hblocked, rfl⟩
  · rintro ⟨before, after, inner, stop, s, holder, rfl, hfound, hblocked, rfl⟩
    have hstop := List.mem_map_of_mem (f := Ending.under inner) (stopped_of_blocked hblocked after)
    rw [walk_append, List.mem_flatMap]
    exact ⟨_, hfound, hstop⟩

theorem get?_append (p q : FieldPath) (node : Json) :
    (p ++ q).get? node = (p.get? node).bind q.get? := by
  induction p generalizing node with
  | nil => rfl
  | cons s rest ih =>
    cases s with
    | key name =>
      cases node with
      | object members =>
        simp only [List.cons_append, get?]
        cases members.lookup name with
        | none => rfl
        | some child => exact ih child
      | _ => rfl
    | index i =>
      cases node with
      | array items =>
        simp only [List.cons_append, get?]
        cases items[i]? with
        | none => rfl
        | some item => exact ih item
      | _ => rfl
    | each => rfl

/-- Where a path has to stop in a document, and why. -/
inductive Stops (p : FieldPath) (node : Json) : FieldPath → Obstacle → Prop
  /-- Nothing is there, although its holder is a container of the right kind. -/
  | absent {before after inner : FieldPath} {s : Segment} {holder : Json}
    (hpath : p = before ++ s :: after) (hcovers : before.Covers inner) (hstep : s.Covers s)
    (hholder : inner.get? node = some holder) (hkind : holder.kind = s.container)
    (hnone : get? (inner ++ [s]) node = none) : Stops p node (inner ++ [s]) .absent
  /-- Null is there, and the path goes on. -/
  | null {before after location : FieldPath} {s : Segment} (hpath : p = before ++ s :: after)
    (hcovers : before.Covers location) (hget : location.get? node = some .null) :
    Stops p node location .null
  /-- Something else is there that is not of the kind that the next step goes into. -/
  | wrongKind {before after location : FieldPath} {s : Segment} {target : Json}
    (hpath : p = before ++ s :: after) (hcovers : before.Covers location)
    (hget : location.get? node = some target) (hsome : target ≠ .null)
    (hkind : target.kind ≠ s.container) :
    Stops p node location (.wrongKind s.container target.kind)

/-- A path stops exactly where it has to. -/
theorem stopped_mem_walk_iff_stops (p location : FieldPath) (node : Json) (obstacle : Obstacle) :
    .stopped location obstacle ∈ p.walk node ↔ p.Stops node location obstacle := by
  rw [stopped_mem_walk_iff]
  constructor
  · rintro ⟨before, after, inner, stop, s, holder, hpath, hfound, hblocked, rfl⟩
    obtain ⟨hcovers, hget⟩ := (found_mem_walk_iff _ _ _ _).mp hfound
    cases hblocked with
    | gap hone hkind hgap =>
      have hnone : get? (inner ++ [s]) node = none := by
        rw [get?_append, hget]
        exact hgap
      exact .absent hpath hcovers (Segment.covers_self hone) hget hkind hnone
    | unfit hkind =>
      rw [List.append_nil]
      by_cases hnull : holder = .null
      · subst hnull
        exact .null hpath hcovers hget
      · rw [Segment.obstacle_of_ne_null s hnull]
        exact .wrongKind hpath hcovers hget hnull hkind
  · intro h
    have hfound : ∀ {before inner holder}, Covers before inner → inner.get? node = some holder →
        .found inner holder ∈ before.walk node :=
      fun hcovers hget => (found_mem_walk_iff _ _ _ _).mpr ⟨hcovers, hget⟩
    cases h with
    | @absent before after inner s holder hpath hcovers hstep hholder hkind hnone =>
      have hgap : get? [s] holder = none := by
        rw [get?_append, hholder] at hnone
        exact hnone
      exact ⟨before, after, inner, [s], s, holder, hpath, hfound hcovers hholder,
        .gap hstep.ne_each hkind hgap, rfl⟩
    | @null before after _ s hpath hcovers hget =>
      have hkind : Json.null.kind ≠ s.container := by cases s <;> exact Kind.noConfusion
      exact ⟨before, after, location, [], s, .null, hpath, hfound hcovers hget, .unfit hkind,
        (List.append_nil _).symm⟩
    | @wrongKind before after _ s target hpath hcovers hget hsome hkind =>
      refine ⟨before, after, location, [], s, target, hpath, hfound hcovers hget, ?_,
        (List.append_nil _).symm⟩
      rw [← Segment.obstacle_of_ne_null s hsome]
      exact .unfit hkind

/-! ## Order -/

/-- One location comes before another one, and neither lies above the other. -/
def Precedes (p q : FieldPath) : Prop := p.order q = .lt ∧ ¬ p <+: q ∧ ¬ q <+: p

theorem Precedes.cons {p q : FieldPath} (h : p.Precedes q) (s : Segment) :
    Precedes (s :: p) (s :: q) := by
  obtain ⟨hlt, hbelow, habove⟩ := h
  refine ⟨?_, ?_, ?_⟩
  · rw [order, (Segment.order_eq_iff s s).mpr rfl]
    exact hlt
  · simpa using hbelow
  · simpa using habove

theorem Precedes.append {p q : FieldPath} (h : p.Precedes q) (base : FieldPath) :
    Precedes (base ++ p) (base ++ q) := by
  induction base with
  | nil => exact h
  | cons s base ih => exact ih.cons s

/-- What lies in one element comes before what lies in a later one. -/
theorem precedes_of_lt {i j : Nat} (h : i < j) (p q : FieldPath) :
    Precedes (.index i :: p) (.index j :: q) := by
  have hne : Segment.index i ≠ .index j := fun hsame => Nat.ne_of_lt h (Segment.index.inj hsame)
  refine ⟨?_, ?_, ?_⟩
  · have hlt : (Segment.index i).order (.index j) = .lt := Nat.compare_eq_lt.mpr h
    rw [order, hlt]
    rfl
  · intro hprefix
    exact hne (List.cons_prefix_cons.mp hprefix).1
  · intro hprefix
    exact hne (List.cons_prefix_cons.mp hprefix).1.symm

theorem mem_map_under_iff {e : Ending} (base : FieldPath) (endings : List Ending) :
    e.under base ∈ endings.map (Ending.under base) ↔ e ∈ endings :=
  List.mem_map_of_injective (Ending.under_injective base)

theorem pairwise_under {endings : List Ending} (base : FieldPath)
    (h : endings.Pairwise (fun e f => e.location.Precedes f.location)) :
    (endings.map (Ending.under base)).Pairwise (fun e f => e.location.Precedes f.location) := by
  rw [List.pairwise_map]
  refine h.imp ?_
  intro e f hef
  rw [Ending.location_under, Ending.location_under]
  exact hef.append base

/-- The endings of a walk stand in the order of paths, and none lies above another. -/
theorem pairwise_walk (p : FieldPath) (node : Json) :
    (p.walk node).Pairwise (fun e f => e.location.Precedes f.location) := by
  induction p generalizing node with
  | nil => exact List.pairwise_singleton _ _
  | cons s rest ih =>
    cases s with
    | key name =>
      cases node with
      | object members =>
        cases hchild : members.lookup name with
        | none =>
          simp only [walk, hchild]
          exact List.pairwise_singleton _ _
        | some child =>
          simp only [walk, hchild]
          exact pairwise_under _ (ih child)
      | _ => exact List.pairwise_singleton _ _
    | index i =>
      cases node with
      | array items =>
        cases hitem : items[i]? with
        | none =>
          simp only [walk, hitem]
          exact List.pairwise_singleton _ _
        | some item =>
          simp only [walk, hitem]
          exact pairwise_under _ (ih item)
      | _ => exact List.pairwise_singleton _ _
    | each =>
      cases node with
      | array items =>
        -- Within one element by induction, and from one element to the next by the index.
        have hindices : items.zipIdx.Pairwise (fun a b => a.2 < b.2) := by
          have hrange : (items.zipIdx.map Prod.snd).Pairwise (· < ·) := by
            rw [List.zipIdx_map_snd]
            exact List.pairwise_lt_range'
          exact List.pairwise_map.mp hrange
        simp only [walk, List.pairwise_flatMap]
        refine ⟨fun a _ => pairwise_under _ (ih a.1), hindices.imp ?_⟩
        intro a b hlt e he f hf
        obtain ⟨e, -, rfl⟩ := List.mem_map.mp he
        obtain ⟨f, -, rfl⟩ := List.mem_map.mp hf
        rw [Ending.location_under, Ending.location_under]
        exact precedes_of_lt hlt _ _
      | _ => exact List.pairwise_singleton _ _

/-! ## Paths without branches -/

/-- A path that leads to one place only stands for no other location. -/
theorem Covers.eq_of_concrete {p location : FieldPath} (h : p.Covers location)
    (hconcrete : p.isConcrete = true) : location = p := by
  induction h with
  | nil => rfl
  | @cons s t rest inner hstep _ ih =>
    rw [isConcrete_cons] at hconcrete
    obtain ⟨hone, hrest⟩ := hconcrete
    rw [ih hrest]
    cases hstep with
    | each i => exact absurd rfl hone
    | _ => rfl

/-- A walk along such a path has one ending. -/
theorem length_walk_of_concrete {p : FieldPath} (hconcrete : p.isConcrete = true) (node : Json) :
    (p.walk node).length = 1 := by
  induction p generalizing node with
  | nil => rfl
  | cons s rest ih =>
    rw [isConcrete_cons] at hconcrete
    obtain ⟨hone, hrest⟩ := hconcrete
    cases s with
    | key name =>
      cases node with
      | object members =>
        cases hchild : members.lookup name with
        | none => simp [walk, hchild]
        | some child => simp [walk, hchild, ih hrest]
      | _ => rfl
    | index i =>
      cases node with
      | array items =>
        cases hitem : items[i]? with
        | none => simp [walk, hitem]
        | some item => simp [walk, hitem, ih hrest]
      | _ => rfl
    | each => exact absurd rfl hone

/-- It finds what a lookup finds. -/
theorem walk_of_concrete {p : FieldPath} (hconcrete : p.isConcrete = true) (node : Json) :
    ∃ e, p.walk node = [e] ∧ e.found? = (p.get? node).map (fun target => (p, target)) := by
  obtain ⟨e, hwalk⟩ := List.length_eq_one_iff.mp (length_walk_of_concrete hconcrete node)
  have hfound : ∀ location target, e = .found location target ↔
      p.Covers location ∧ location.get? node = some target := by
    intro location target
    rw [← found_mem_walk_iff, hwalk, List.mem_singleton, eq_comm]
  refine ⟨e, hwalk, ?_⟩
  cases e with
  | found location target =>
    obtain ⟨hcovers, hget⟩ := (hfound location target).mp rfl
    obtain rfl := hcovers.eq_of_concrete hconcrete
    rw [hget]
    rfl
  | stopped location obstacle =>
    cases hget : p.get? node with
    | none => rfl
    | some target => cases (hfound p target).mpr ⟨covers_self hconcrete, hget⟩

/-! ## Resolution -/

/-- What a path comes to from a node whose own location is known. -/
structure Resolves (p : FieldPath) (node : Json) (base : FieldPath) (endings : List Ending) :
    Prop where
  /-- The endings come in the order of paths, and none lies above another. -/
  ordered : endings.Pairwise (fun e f => e.location.Precedes f.location)
  /-- All of them lie at the node or below it. -/
  below : ∀ e ∈ endings, base <+: e.location
  /-- Exactly the nodes at the locations that the path stands for are found. -/
  found : ∀ r target, .found (base ++ r) target ∈ endings ↔
    p.Covers r ∧ r.get? node = some target
  /-- The path stops exactly where it has to. -/
  stopped : ∀ r obstacle, .stopped (base ++ r) obstacle ∈ endings ↔ p.Stops node r obstacle
  /-- A path without branches ends once, and finds what a lookup finds. -/
  single : p.isConcrete = true → ∃ e, endings = [e] ∧
    e.found? = (p.get? node).map (fun target => (base ++ p, target))

/-- Resolution is sound, complete and ordered. -/
theorem resolution_is_exact_and_in_order (p : FieldPath) (node : Json) (base : FieldPath) :
    p.Resolves node base (p.resolveFrom node base) where
  ordered := pairwise_under base (pairwise_walk p node)
  below := by
    intro e he
    obtain ⟨e, -, rfl⟩ := List.mem_map.mp he
    rw [Ending.location_under]
    exact List.prefix_append _ _
  found := by
    intro r target
    rw [← found_mem_walk_iff]
    exact mem_map_under_iff (e := .found r target) base _
  stopped := by
    intro r obstacle
    rw [← stopped_mem_walk_iff_stops]
    exact mem_map_under_iff (e := .stopped r obstacle) base _
  single := by
    intro hconcrete
    obtain ⟨e, hwalk, hfound⟩ := walk_of_concrete hconcrete node
    refine ⟨e.under base, by rw [resolveFrom, hwalk]; rfl, ?_⟩
    rw [Ending.found?_under, hfound, Option.map_map]
    rfl

/-! Four rooms. The first has a clerk with a name, the second has none, the third has null for one,
and the fourth has no more than a text. -/

namespace Example

def staffed : Json :=
  .object [("rooms", .array [
    .object [("clerk", .object [("name", .string "A")])],
    .object [],
    .object [("clerk", .null)],
    .object [("clerk", .string "B")]])]

/-- The name of the clerk of every room. -/
def clerkNames : FieldPath := [.key "rooms", .each, .key "clerk", .key "name"]

def clerk (i : Nat) : FieldPath := [.key "rooms", .index i, .key "clerk"]

def list : FieldPath := [.key "list"]

end Example

open Example in
/-- Each room has an ending of its own, and the path to the clerk of the first room has one. -/
theorem one_clerk_in_four_rooms_has_a_name :
    (clerkNames.resolveFrom staffed list).map Ending.location =
      [list ++ clerk 0 ++ [.key "name"], list ++ clerk 1, list ++ clerk 2, list ++ clerk 3] ∧
    clerkNames.Covers (clerk 0 ++ [.key "name"]) ∧
    clerkNames.Stops staffed (clerk 1) .absent ∧ clerkNames.Stops staffed (clerk 2) .null ∧
    clerkNames.Stops staffed (clerk 3) (.wrongKind .object .string) ∧
    (clerk 0).isConcrete = true ∧
    ∃ e, (clerk 0).resolveFrom staffed list = [e] ∧
      e.found? = some (list ++ clerk 0, .object [("name", .string "A")]) := by
  have hresolves := resolution_is_exact_and_in_order clerkNames staffed list
  have hclerk := resolution_is_exact_and_in_order (clerk 0) staffed list
  have hendings : clerkNames.resolveFrom staffed list =
      [.found (list ++ (clerk 0 ++ [.key "name"])) (.string "A"),
        .stopped (list ++ clerk 1) .absent, .stopped (list ++ clerk 2) .null,
        .stopped (list ++ clerk 3) (.wrongKind .object .string)] := rfl
  rw [hendings] at hresolves
  refine ⟨by rw [hendings]; rfl, ?_, ?_, ?_, ?_, by decide, hclerk.single (by decide)⟩
  · exact ((hresolves.found _ (.string "A")).mp (by simp)).1
  · exact (hresolves.stopped _ _).mp (by simp)
  · exact (hresolves.stopped _ _).mp (by simp)
  · exact (hresolves.stopped _ _).mp (by simp)

end FieldPath

end CauseLists
