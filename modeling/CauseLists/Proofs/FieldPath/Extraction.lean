-- Removing along a path. Every node that the path without its last step reaches loses its part at
-- that step, and nothing else is changed: what is counted is what the path locates, lookups aside
-- from it find what they found before, and a removal that counts nothing changes nothing.
import CauseLists.Proofs.FieldPath.Changes
import CauseLists.Proofs.FieldPath.Reach

namespace CauseLists

/-- What is left of a node without its part at a step. -/
def Segment.without : Segment → Json → Json
  | .key name, .object members => .object (FieldPath.eraseMember name members)
  | .index i, .array items => .array (items.eraseIdx i)
  | .each, .array _ => .array []
  | _, node => node

namespace FieldPath

/-- A place is neither at nor below another one, nor on the way to it. -/
def Aside (place other : FieldPath) : Prop := ¬ other <+: place ∧ ¬ place <+: other

/-! ## Counting -/

/-- A location is there for every branch of the path that arrives. -/
theorem length_locate (p : FieldPath) (node : Json) :
    (p.locate node).length = (p.arrivals node).countP Option.isSome := by
  have hwalk : p.locate node = (p.walk node).filterMap (fun e => e.found?.map Prod.fst) := by
    simp [locate, resolve, resolveFrom]
  rw [hwalk, List.length_filterMap_eq_countP, arrivals, List.countP_map]
  apply List.countP_congr
  intro e _
  cases e <;> simp [Ending.found?, Ending.node?]

theorem remove_last (s : Segment) (node : Json) :
    remove [s] node = ((locate [s] node).length, s.without node) := by
  rw [length_locate]
  cases s with
  | key name =>
    rw [arrivals_key]
    cases node with
    | object members =>
      cases hchild : members.lookup name with
      | none =>
        have hremove : remove [.key name] (.object members) = (0, .object members) :=
          if_neg (by simp [hchild])
        simp [hremove, Json.member?, hchild, Segment.without, eraseMember_self hchild]
      | some child =>
        have hremove : remove [.key name] (.object members) =
            (1, .object (eraseMember name members)) := if_pos (by simp [hchild])
        simp [hremove, Json.member?, hchild, Segment.without, arrivals, walk, Ending.node?]
    | _ => rfl
  | index i =>
    rw [arrivals_index]
    cases node with
    | array items =>
      by_cases hi : i < items.length
      · have hremove : remove [.index i] (.array items) = (1, .array (items.eraseIdx i)) :=
          if_pos hi
        simp [hremove, Json.element?, hi, Segment.without, arrivals, walk, Ending.node?]
      · have hremove : remove [.index i] (.array items) = (0, .array items) := if_neg hi
        have hle : items.length ≤ i := Nat.le_of_not_lt hi
        simp [hremove, Json.element?, hle, Segment.without, List.eraseIdx_of_length_le hle]
    | _ => rfl
  | each =>
    cases node with
    | array items =>
      have hremove : remove [.each] (.array items) = (items.length, .array []) := rfl
      have hone : arrivals [] = fun item => [some item] := rfl
      rw [hremove, arrivals_each, hone]
      simp [Segment.without, List.countP_flatMap, Function.comp_def]
    | _ => rfl

/-- Removing along a path takes the part at the last step out of every node that the rest of the
path reaches. -/
theorem remove_concat (holder : FieldPath) (s : Segment) (node : Json) :
    remove (holder ++ [s]) node =
      ((locate (holder ++ [s]) node).length, change s.without holder node) := by
  induction holder generalizing node with
  | nil => exact remove_last s node
  | cons first rest ih =>
    -- What follows the first step is not empty, so the removal goes on below it.
    obtain ⟨t, more, htail⟩ : ∃ t more, rest ++ [s] = t :: more :=
      List.exists_cons_of_ne_nil (by simp)
    rw [List.cons_append, length_locate]
    simp only [length_locate] at ih
    rw [htail] at ih ⊢
    cases first with
    | key name =>
      rw [arrivals_key]
      cases node with
      | object members =>
        cases hchild : members.lookup name with
        | none =>
          have hremove : remove (.key name :: t :: more) (.object members) =
              (0, .object members) := by
            conv => lhs; whnf
            rw [hchild]
          simp [hremove, Json.member?, change, hchild]
        | some child => simp [remove_key hchild, Json.member?, change, hchild, ih]
      | _ => rfl
    | index i =>
      rw [arrivals_index]
      cases node with
      | array items =>
        cases hitem : items[i]? with
        | none =>
          have hremove : remove (.index i :: t :: more) (.array items) = (0, .array items) := by
            conv => lhs; whnf
            rw [hitem]
          have hle : items.length ≤ i := by simpa using hitem
          simp [hremove, Json.element?, change, hitem, List.modify_eq_self hle]
        | some item =>
          have hmodify : items.modify i (change s.without rest) =
              items.set i (change s.without rest item) := by
            rw [List.modify_eq_set_getElem?, hitem]
            rfl
          simp [remove_index hitem, Json.element?, change, hitem, ih, hmodify]
      | _ => rfl
    | each =>
      cases node with
      | array items =>
        have hparts : items.map (remove (t :: more)) = items.map (fun item =>
            ((arrivals (t :: more) item).countP Option.isSome, change s.without rest item)) :=
          List.map_congr_left fun item _ => ih item
        have hremove : remove (.each :: t :: more) (.array items) =
            (((items.map (remove (t :: more))).map Prod.fst).sum,
              .array ((items.map (remove (t :: more))).map Prod.snd)) := rfl
        rw [hremove, hparts, arrivals_each, List.countP_flatMap]
        simp [change, Function.comp_def]
      | _ => rfl

/-! ## One step -/

theorem mem_locate_last {s t : Segment} {node child : Json} (h : s.Leads node t child) :
    [t] ∈ locate [s] node :=
  mem_locate.mpr ⟨child, mem_walk_cons (e := .found [] child) h (List.mem_singleton_self _)⟩

/-- What a path with one more step locates is located at the step from what the path reaches. -/
theorem mem_locate_concat {holder taken : FieldPath} {s : Segment} {node : Json} :
    taken ∈ locate (holder ++ [s]) node ↔ ∃ location target inner,
      .found location target ∈ holder.walk node ∧ inner ∈ locate [s] target ∧
        taken = location ++ inner := by
  simp only [mem_locate, walk_append, List.mem_flatMap]
  constructor
  · rintro ⟨part, e, he, hpart⟩
    cases e with
    | stopped place obstacle => cases List.mem_singleton.mp hpart
    | found location target =>
      obtain ⟨inside, hinside, hunder⟩ := List.mem_map.mp hpart
      obtain ⟨inner, rfl, rfl⟩ := Ending.under_eq_found hunder
      exact ⟨location, target, inner, he, ⟨part, hinside⟩, rfl⟩
  · rintro ⟨location, target, inner, hfound, ⟨part, hpart⟩, rfl⟩
    exact ⟨part, _, hfound, List.mem_map.mpr ⟨_, hpart, rfl⟩⟩

/-- Where a step leads nowhere, there is no part to take out. -/
theorem without_eq_self {s : Segment} {node : Json} (h : locate [s] node = []) :
    s.without node = node := by
  have hnone : ∀ {t child}, ¬ s.Leads node t child := by
    intro t child hleads
    have hmem := mem_locate_last hleads
    rw [h] at hmem
    cases hmem
  cases s with
  | key name =>
    cases node with
    | object members =>
      cases hchild : members.lookup name with
      | none => exact congrArg Json.object (eraseMember_self hchild)
      | some child => exact absurd (.key hchild) hnone
    | _ => rfl
  | index i =>
    cases node with
    | array items =>
      cases hitem : items[i]? with
      | none =>
        exact congrArg Json.array (List.eraseIdx_of_length_le (List.getElem?_eq_none_iff.mp hitem))
      | some item => exact absurd (.index hitem) hnone
    | _ => rfl
  | each =>
    cases node with
    | array items =>
      cases items with
      | nil => rfl
      | cons item more => exact absurd (.each (i := 0) rfl) hnone
    | _ => rfl

theorem kind_without (s : Segment) (node : Json) : (s.without node).kind = node.kind := by
  cases s <;> cases node <;> rfl

/-- A step other than an index leads nowhere once its part is taken out. -/
theorem locate_without {s : Segment} (hs : ∀ i, s ≠ .index i) {node : Json}
    (honce : node.KeysOnce) : locate [s] (s.without node) = [] := by
  cases s with
  | key name =>
    cases honce with
    | object hkeys _ =>
      simp [Segment.without, locate, resolve, resolveFrom, walk, lookup_eraseMember_self hkeys,
        Ending.found?]
    | _ => rfl
  | index i => exact absurd rfl (hs i)
  | each => cases node <;> rfl

/-- A step other than an index leads to the first step of a place, or its part is not there. -/
theorem leads_or_without {s : Segment} (hs : ∀ i, s ≠ .index i) (t : Segment)
    (place : FieldPath) (node : Json) : (∃ child, s.Leads node t child) ∨
      get? (t :: place) (s.without node) = get? (t :: place) node := by
  cases s with
  | key name =>
    cases node with
    | object members =>
      cases t with
      | key other =>
        by_cases hother : other = name
        · subst hother
          cases hchild : members.lookup other with
          | none => exact .inr (by rw [Segment.without, eraseMember_self hchild])
          | some child => exact .inl ⟨child, .key hchild⟩
        · exact .inr (by simp only [Segment.without, get?, lookup_eraseMember_of_ne hother])
      | _ => exact .inr rfl
    | _ => exact .inr rfl
  | index i => exact absurd rfl (hs i)
  | each =>
    cases node with
    | array items =>
      cases t with
      | index j =>
        cases hitem : items[j]? with
        | none => exact .inr (by simp [Segment.without, get?, hitem])
        | some item => exact .inl ⟨item, .each hitem⟩
      | _ => exact .inr rfl
    | _ => exact .inr rfl

/-- Lookups in a node find what they found before if they lead into no part that is taken out. -/
theorem get?_without {s t : Segment} (hs : ∀ i, s ≠ .index i) {place : FieldPath} {node : Json}
    (hnot : ∀ gone ∈ locate [s] node, ¬ gone <+: t :: place) :
    get? (t :: place) (s.without node) = get? (t :: place) node := by
  rcases leads_or_without hs t place node with ⟨child, hleads⟩ | hsame
  · exact absurd (List.prefix_append [t] place) (hnot [t] (mem_locate_last hleads))
  · exact hsame

/-- An index takes one element out of a longer array, and nothing out of anything else. -/
theorem without_index (i : Nat) (node : Json) : (Segment.index i).without node = node ∨
    ∃ items, node = .array items ∧ i < items.length := by
  cases node with
  | array items =>
    by_cases hi : i < items.length
    · exact .inr ⟨items, rfl, hi⟩
    · have hle : items.length ≤ i := Nat.le_of_not_lt hi
      exact .inl (congrArg Json.array (List.eraseIdx_of_length_le hle))
  | _ => exact .inl rfl

/-! ## A whole removal -/

/-- The path to a holder reaches an array there that has an element at an index. -/
def Shortens (holder : FieldPath) (i : Nat) (document : Json) (place : FieldPath)
    (items : List Json) : Prop :=
  place ∈ holder.locate document ∧ place.get? document = some (.array items) ∧ i < items.length

/-- What a removal along a path to a holder and a last step is: the number that it counts and the
document that it leaves. -/
structure Removes (holder : FieldPath) (last : Segment) (document : Json) (count : Nat)
    (left : Json) : Prop where
  /-- What is counted are the locations. -/
  counted : count = (locate (holder ++ [last]) document).length
  /-- After a last step that is no index, the path reaches nothing. -/
  gone : (∀ i, last ≠ .index i) → locate (holder ++ [last]) left = []
  /-- Everything is as it was aside from the locations. -/
  beside : (∀ i, last ≠ .index i) → ∀ place : FieldPath,
    (∀ taken ∈ locate (holder ++ [last]) document, place.Aside taken) →
      place.get? left = place.get? document
  /-- What is on the way to a location stays there, and of its kind. -/
  kept : (∀ i, last ≠ .index i) → ∀ place : FieldPath,
    (∀ taken ∈ locate (holder ++ [last]) document, ¬ taken <+: place) →
      (place.get? left).map Json.kind = (place.get? document).map Json.kind
  /-- An index is taken out of every longer array, and the elements behind it move down. -/
  shortened : ∀ i, last = .index i → ∀ place items, holder.Shortens i document place items →
    place.get? left = some (.array (items.take i ++ items.drop (i + 1)))
  /-- Everything is as it was aside from these arrays. -/
  besideArrays : ∀ i, last = .index i → ∀ place : FieldPath,
    (∀ array items, holder.Shortens i document array items → place.Aside array) →
      place.get? left = place.get? document
  /-- What is on the way to such an array keeps its kind and the names of its members. -/
  outlined : ∀ i, last = .index i → ∀ place : FieldPath,
    (∀ array items, holder.Shortens i document array items → ¬ array <+: place) →
      (place.get? left).map Json.outline = (place.get? document).map Json.outline
  unchanged : count = 0 → left = document

section

variable {holder place : FieldPath} {s : Segment} {document : Json} {before after : Option Json}

theorem locate_change_without (hs : ∀ i, s ≠ .index i) (honce : document.KeysOnce) :
    locate (holder ++ [s]) (change s.without holder document) = [] := by
  refine List.eq_nil_iff_forall_not_mem.mpr ?_
  intro taken htaken
  obtain ⟨location, target, inner, hfound, hinner, -⟩ := mem_locate_concat.mp htaken
  obtain ⟨before, hbefore, rfl⟩ := found_change hfound
  rw [locate_without hs (keysOnce_of_found honce hbefore)] at hinner
  cases hinner

/-- Nothing is changed where no location is taken. -/
theorem change_without_eq_self (h : ∀ taken, taken ∉ locate (holder ++ [s]) document) :
    change s.without holder document = document := by
  apply change_eq_self
  intro location target hfound
  apply without_eq_self
  refine List.eq_nil_iff_forall_not_mem.mpr ?_
  intro inner hinner
  exact h _ (mem_locate_concat.mpr ⟨location, target, inner, hfound, hinner, rfl⟩)

/-- A place below a node that loses a part is as it was if it is not in the part. -/
theorem get?_below (hs : ∀ i, s ≠ .index i) {location inner : FieldPath} {t : Segment}
    {target : Json} (hfound : .found location target ∈ holder.walk document)
    (hnot : ∀ taken ∈ locate (holder ++ [s]) document, ¬ taken <+: location ++ t :: inner) :
    get? (t :: inner) (s.without target) = get? (t :: inner) target := by
  apply get?_without hs
  intro part hpart hprefix
  refine hnot _ (mem_locate_concat.mpr ⟨location, target, part, hfound, hpart, rfl⟩) ?_
  exact (List.prefix_append_right_inj _).mpr hprefix

theorem Changed.eq_of_aside (hs : ∀ i, s ≠ .index i)
    (haside : ∀ taken ∈ locate (holder ++ [s]) document, place.Aside taken)
    (h : Changed s.without holder document place before after) : after = before := by
  cases h with
  | @below location inner target hfound hplace =>
    subst hplace
    cases inner with
    | nil =>
      -- Any part that is taken out would be below the place.
      have hself : s.without target = target := by
        apply without_eq_self
        refine List.eq_nil_iff_forall_not_mem.mpr ?_
        intro part hpart
        apply (haside _ (mem_locate_concat.mpr ⟨_, _, part, hfound, hpart, rfl⟩)).2
        rw [List.append_nil]
        exact List.prefix_append location part
      rw [hself]
    | cons t inner => exact get?_below hs hfound fun taken htaken => (haside taken htaken).1
  | @above t rest target hfound =>
    have hself : change s.without (t :: rest) target = target := by
      apply change_without_eq_self
      intro taken htaken
      obtain ⟨location, reached, part, hreached, hpart, rfl⟩ := mem_locate_concat.mp htaken
      have hmem := mem_locate_concat.mpr ⟨_, _, part, hfound _ _ hreached, hpart, rfl⟩
      apply (haside _ hmem).2
      rw [List.append_assoc]
      exact List.prefix_append place (location ++ part)
    rw [hself]
  | aside => rfl

theorem kind_of_outline {a b : Json} (h : a.outline = b.outline) : a.kind = b.kind := by
  have hkind : ∀ node : Json, node.outline.1 = node.kind := by
    intro node
    cases node <;> rfl
  rw [← hkind a, ← hkind b, h]

theorem Changed.kind (hs : ∀ i, s ≠ .index i)
    (hnot : ∀ taken ∈ locate (holder ++ [s]) document, ¬ taken <+: place)
    (h : Changed s.without holder document place before after) :
    after.map Json.kind = before.map Json.kind := by
  cases h with
  | @below location inner target hfound hplace =>
    subst hplace
    cases inner with
    | nil => exact congrArg some (kind_without s target)
    | cons t inner => rw [get?_below hs hfound hnot]
  | @above t rest target hfound =>
    exact congrArg some (kind_of_outline (outline_change t rest target))
  | aside => rfl

end

/-! ## Taking an index out -/

section

variable {holder place : FieldPath} {i : Nat} {document : Json} {before after : Option Json}

/-- A node that is reached loses an element if it is a longer array, and nothing otherwise. -/
theorem shortens_or_same {location : FieldPath} {target : Json}
    (hfound : .found location target ∈ holder.walk document) :
    (∃ items, target = .array items ∧ holder.Shortens i document location items) ∨
      (Segment.index i).without target = target := by
  rcases without_index i target with hsame | ⟨items, rfl, hi⟩
  · exact .inr hsame
  · exact .inl ⟨items, rfl, mem_locate.mpr ⟨_, hfound⟩, get?_of_found hfound, hi⟩

theorem get?_shortened {items : List Json}
    (h : holder.Shortens i document place items) :
    place.get? (change (Segment.index i).without holder document) =
      some (.array (items.take i ++ items.drop (i + 1))) := by
  obtain ⟨hlocated, hget, -⟩ := h
  obtain ⟨target, hfound⟩ := mem_locate.mp hlocated
  obtain rfl := Option.some.inj ((get?_of_found hfound).symm.trans hget)
  have hafter : .found place ((Segment.index i).without (.array items)) ∈
      holder.walk (change (Segment.index i).without holder document) := by
    rw [walk_change]
    exact List.mem_map.mpr ⟨_, hfound, rfl⟩
  rw [get?_of_found hafter, Segment.without, List.eraseIdx_eq_take_drop_succ]

theorem Changed.eq_of_asideArrays
    (haside : ∀ array items, holder.Shortens i document array items → place.Aside array)
    (h : Changed (Segment.index i).without holder document place before after) :
    after = before := by
  cases h with
  | @below location inner target hfound hplace =>
    subst hplace
    rcases shortens_or_same (i := i) hfound with ⟨items, -, hshortens⟩ | hsame
    · exact absurd (List.prefix_append location inner) (haside location items hshortens).1
    · rw [hsame]
  | @above t rest target hfound =>
    have hself : change (Segment.index i).without (t :: rest) target = target := by
      apply change_eq_self
      intro location reached hreached
      rcases shortens_or_same (i := i) (hfound location reached hreached) with
        ⟨items, -, hshortens⟩ | hsame
      · exact absurd (List.prefix_append place location) (haside _ items hshortens).2
      · exact hsame
    rw [hself]
  | aside => rfl

theorem Changed.outline
    (hnot : ∀ array items, holder.Shortens i document array items → ¬ array <+: place)
    (h : Changed (Segment.index i).without holder document place before after) :
    after.map Json.outline = before.map Json.outline := by
  cases h with
  | @below location inner target hfound hplace =>
    subst hplace
    rcases shortens_or_same (i := i) hfound with ⟨items, -, hshortens⟩ | hsame
    · exact absurd (List.prefix_append location inner) (hnot location items hshortens)
    · rw [hsame]
  | @above t rest target hfound => exact congrArg some (outline_change t rest target)
  | aside => rfl

end

/-- Removing along any path but the root, which is a path to a holder and a last step, agrees with
locating along it and touches nothing else. -/
theorem removing_takes_out_what_is_located {document : Json} (honce : document.KeysOnce)
    (holder : FieldPath) (last : Segment) :
    Removes holder last document (remove (holder ++ [last]) document).1
      (remove (holder ++ [last]) document).2 := by
  rw [remove_concat]
  exact {
    counted := rfl
    gone := fun hs => locate_change_without hs honce
    beside := fun hs place haside => (changed_get? holder place document).eq_of_aside hs haside
    kept := fun hs place hnot => (changed_get? holder place document).kind hs hnot
    shortened := by
      rintro i rfl place items h
      exact get?_shortened h
    besideArrays := by
      rintro i rfl place haside
      exact (changed_get? holder place document).eq_of_asideArrays haside
    outlined := by
      rintro i rfl place hnot
      exact (changed_get? holder place document).outline hnot
    unchanged := by
      intro hcount
      apply change_without_eq_self
      rw [List.length_eq_zero_iff.mp hcount]
      exact fun taken => List.not_mem_nil }

/-! Two court rooms, of which the first has more than one judge. -/

namespace Example

def judged : Json :=
  .object [("day", .string "Monday"), ("rooms", .array [
    .object [("judges", .array [.string "A", .string "B", .string "C"])],
    .object [("judges", .array [.string "D"])]])]

/-- The judges of every room. -/
def judges : FieldPath := [.key "rooms", .each, .key "judges"]

theorem keysOnce_judged : judged.KeysOnce := by
  have hnames : ∀ s, (Json.string s).KeysOnce := .string
  have hroom : ∀ names : List String,
      (Json.object [("judges", .array (names.map .string))]).KeysOnce := by
    intro names
    refine .object (by simp) ?_
    simp only [List.forall_mem_singleton]
    exact .array (by simp [hnames])
  refine .object (by decide) ?_
  simp only [List.forall_mem_cons]
  refine ⟨hnames "Monday", .array ?_, by simp⟩
  simp only [List.forall_mem_cons]
  exact ⟨hroom ["A", "B", "C"], hroom ["D"], by simp⟩

/-- The judges of the first room. -/
def firstJudges : FieldPath := [.key "rooms", .index 0, .key "judges"]

end Example

open Example in
/-- The second judge of every room is taken out, and only the first room has one. -/
theorem the_second_judge_leaves_the_first_room :
    judged.KeysOnce ∧ (remove (judges ++ [.index 1]) judged).1 = 1 ∧
    firstJudges.get? (remove (judges ++ [.index 1]) judged).2 =
      some (.array [.string "A", .string "C"]) ∧
    get? [.key "day"] (remove (judges ++ [.index 1]) judged).2 = some (.string "Monday") ∧
    (remove (judges ++ [.key "name"]) judged).2 = judged := by
  have hsecond := removing_takes_out_what_is_located keysOnce_judged judges (.index 1)
  have hname := removing_takes_out_what_is_located keysOnce_judged judges (.key "name")
  have hlocated : locate (judges ++ [.index 1]) judged = [firstJudges ++ [.index 1]] := by decide
  have hnone : locate (judges ++ [.key "name"]) judged = [] := by decide
  have hfirst : judges.Shortens 1 judged firstJudges [.string "A", .string "B", .string "C"] :=
    ⟨by decide, rfl, by decide⟩
  have hday : ∀ array items, judges.Shortens 1 judged array items → Aside [.key "day"] array := by
    rintro array items ⟨harray, -⟩
    have hjudges : judges.locate judged =
        [firstJudges, [.key "rooms", .index 1, .key "judges"]] := by decide
    rw [hjudges] at harray
    rcases List.mem_pair.mp harray with rfl | rfl
    · exact ⟨by decide, by decide⟩
    · exact ⟨by decide, by decide⟩
  refine ⟨keysOnce_judged, by rw [hsecond.counted, hlocated]; rfl,
    hsecond.shortened 1 rfl firstJudges _ hfirst, ?_, hname.unchanged ?_⟩
  · exact hsecond.besideArrays 1 rfl [.key "day"] hday
  · rw [hname.counted, hnone]
    rfl

end FieldPath

end CauseLists
