-- What a walk sees after a member was taken out of a document. It stops where the member was, or
-- it arrives at a node on the way to it, which is still a node of its kind, or it ends as it did
-- before.
import CauseLists.Proofs.FieldPath.Endings
import CauseLists.Proofs.Json.Keys
import Mathlib.Data.List.Basic

namespace CauseLists

/-! ## Members -/

namespace FieldPath

variable {name other : String} {members : List (String × Json)}

theorem lookup_eraseMember_of_ne (h : other ≠ name) :
    (eraseMember name members).lookup other = members.lookup other := by
  induction members with
  | nil => rfl
  | cons m rest ih =>
    obtain ⟨k, v⟩ := m
    by_cases hk : k = name
    · subst hk
      have hother : (other == k) = false := by simpa using h
      simp [eraseMember, List.lookup_cons, hother]
    · have hname : (k == name) = false := by simpa using hk
      simp only [eraseMember, hname, Bool.false_eq_true, if_false, List.lookup_cons, ih]

theorem lookup_eq_none_of_notMem_keys (h : name ∉ members.map Prod.fst) :
    members.lookup name = none := by
  rw [List.lookup_eq_none_iff]
  intro m hm
  have hne : name ≠ m.1 := fun hsame => h (hsame ▸ List.mem_map_of_mem hm)
  simpa using hne

theorem lookup_eraseMember_self (honce : (members.map Prod.fst).Nodup) :
    (eraseMember name members).lookup name = none := by
  induction members with
  | nil => rfl
  | cons m rest ih =>
    obtain ⟨k, v⟩ := m
    obtain ⟨hk, hrest⟩ := List.nodup_cons.mp honce
    by_cases hsame : k = name
    · subst hsame
      simpa [eraseMember] using lookup_eq_none_of_notMem_keys hk
    · have hname : (k == name) = false := by simpa using hsame
      have hname' : (name == k) = false := by simpa using Ne.symm hsame
      simp only [eraseMember, hname, Bool.false_eq_true, if_false, List.lookup_cons, hname']
      exact ih hrest

theorem lookup_setMember_self {old value : Json} (h : members.lookup name = some old) :
    (setMember name value members).lookup name = some value := by
  induction members with
  | nil => cases h
  | cons m rest ih =>
    obtain ⟨k, v⟩ := m
    by_cases hk : k = name
    · simp [setMember, hk]
    · have hname : (k == name) = false := by simpa using hk
      have hname' : (name == k) = false := by simpa using Ne.symm hk
      simp only [List.lookup_cons, hname'] at h
      simp only [setMember, hname, Bool.false_eq_true, if_false, List.lookup_cons, hname']
      exact ih h

theorem lookup_setMember_of_ne (h : other ≠ name) (value : Json) :
    (setMember name value members).lookup other = members.lookup other := by
  induction members with
  | nil => rfl
  | cons m rest ih =>
    obtain ⟨k, v⟩ := m
    by_cases hk : k = name
    · subst hk
      have hother : (other == k) = false := by simpa using h
      simp [setMember, List.lookup_cons, hother]
    · have hname : (k == name) = false := by simpa using hk
      simp only [setMember, hname, Bool.false_eq_true, if_false, List.lookup_cons, ih]

theorem setMember_self {value : Json} (h : members.lookup name = some value) :
    setMember name value members = members := by
  induction members with
  | nil => rfl
  | cons m rest ih =>
    obtain ⟨k, v⟩ := m
    by_cases hk : k = name
    · subst hk
      simp at h
      simp [setMember, h]
    · have hname : (name == k) = false := by simpa using Ne.symm hk
      simp only [List.lookup_cons, hname] at h
      simp [setMember, hk, ih h]

theorem eraseMember_self (h : members.lookup name = none) : eraseMember name members = members := by
  induction members with
  | nil => rfl
  | cons m rest ih =>
    obtain ⟨k, v⟩ := m
    by_cases hk : k = name
    · subst hk
      simp at h
    · have hname : (name == k) = false := by simpa using Ne.symm hk
      simp only [List.lookup_cons, hname] at h
      simp [eraseMember, hk, ih h]

theorem names_setMember (value : Json) :
    (setMember name value members).map Prod.fst = members.map Prod.fst := by
  induction members with
  | nil => rfl
  | cons m rest ih =>
    obtain ⟨k, v⟩ := m
    by_cases hk : k = name <;> simp [setMember, hk, ih]

theorem eraseMember_mapStringsMembers (f : String → String) :
    eraseMember name (Json.mapStringsMembers f members) =
      Json.mapStringsMembers f (eraseMember name members) := by
  induction members with
  | nil => rfl
  | cons m rest ih =>
    obtain ⟨k, v⟩ := m
    by_cases hk : k = name <;> simp [Json.mapStringsMembers, eraseMember, hk, ih]

theorem setMember_mapStringsMembers (f : String → String) (value : Json) :
    setMember name (value.mapStrings f) (Json.mapStringsMembers f members) =
      Json.mapStringsMembers f (setMember name value members) := by
  induction members with
  | nil => rfl
  | cons m rest ih =>
    obtain ⟨k, v⟩ := m
    by_cases hk : k = name <;> simp [Json.mapStringsMembers, setMember, hk, ih]

end FieldPath

/-! ## Taking a member out -/

/-- A member was taken out at a location, and nothing else was changed. -/
inductive Json.Loses : FieldPath → Json → Json → Prop
  | member {name : String} {members : List (String × Json)}
    (hthere : (members.lookup name).isSome)
    (hgone : (FieldPath.eraseMember name members).lookup name = none) :
    Loses [.key name] (.object members) (.object (FieldPath.eraseMember name members))
  | under {name : String} {members : List (String × Json)} {child child' : Json} {rest : FieldPath}
    (hchild : members.lookup name = some child) (hloses : Loses rest child child') :
    Loses (.key name :: rest) (.object members) (.object (FieldPath.setMember name child' members))
  | within {i : Nat} {items : List Json} {item item' : Json} {rest : FieldPath}
    (hitem : items[i]? = some item) (hloses : Loses rest item item') :
    Loses (.index i :: rest) (.array items) (.array (items.set i item'))

namespace Json.Loses

variable {location : FieldPath} {node node' : Json}

/-- Only what holds something can lose it, and it stays what it is. -/
theorem kind (h : Loses location node node') :
    node'.kind = node.kind ∧ (node.kind = .object ∨ node.kind = .array) := by
  cases h with
  | member _ _ => exact ⟨rfl, .inl rfl⟩
  | under _ _ => exact ⟨rfl, .inl rfl⟩
  | within _ _ => exact ⟨rfl, .inr rfl⟩

theorem mapStrings (f : String → String) (h : Loses location node node') :
    Loses location (node.mapStrings f) (node'.mapStrings f) := by
  induction h with
  | @member name members hthere hgone =>
    simp only [Json.mapStrings, ← FieldPath.eraseMember_mapStringsMembers]
    refine .member ?_ ?_
    · rwa [lookup_mapStringsMembers, Option.isSome_map]
    · rw [FieldPath.eraseMember_mapStringsMembers, lookup_mapStringsMembers, hgone]
      rfl
  | @under name members child child' rest hchild _ ih =>
    simp only [Json.mapStrings, ← FieldPath.setMember_mapStringsMembers]
    exact .under (by rw [lookup_mapStringsMembers, hchild]; rfl) ih
  | @within i items item item' rest hitem _ ih =>
    simp only [Json.mapStrings, mapStringsItems_eq_map, List.map_set]
    exact .within (by rw [List.getElem?_map, hitem]; rfl) ih

end Json.Loses

namespace FieldPath

/-- A removal below a member is a removal from that member. -/
theorem remove_key {k : String} {members : List (String × Json)} {child : Json}
    (hchild : members.lookup k = some child) (t : Segment) (more : FieldPath) :
    remove (.key k :: t :: more) (.object members) =
      ((remove (t :: more) child).1,
        .object (setMember k (remove (t :: more) child).2 members)) := by
  conv => lhs; whnf
  rw [hchild]

theorem remove_index {i : Nat} {items : List Json} {item : Json} (hitem : items[i]? = some item)
    (t : Segment) (more : FieldPath) :
    remove (.index i :: t :: more) (.array items) =
      ((remove (t :: more) item).1, .array (items.set i (remove (t :: more) item).2)) := by
  conv => lhs; whnf
  rw [hitem]

/-- Removing what is under a key takes out exactly that member. -/
theorem remove_loses {holder : FieldPath} {name : String} {node target : Json}
    (honce : node.KeysOnce) (hget : get? (holder ++ [.key name]) node = some target) :
    (remove (holder ++ [.key name]) node).1 = 1 ∧
      Json.Loses (holder ++ [.key name]) node (remove (holder ++ [.key name]) node).2 := by
  induction holder generalizing node with
  | nil =>
    cases node with
    | object members =>
      obtain ⟨child, hchild, -⟩ := Option.bind_eq_some_iff.mp hget
      have hthere : (members.lookup name).isSome := by simp [hchild]
      cases honce with
      | object hkeys _ =>
        have hremove : remove [.key name] (.object members) =
            (1, .object (eraseMember name members)) := if_pos hthere
        rw [List.nil_append, hremove]
        exact ⟨rfl, .member hthere (lookup_eraseMember_self hkeys)⟩
    | _ => cases hget
  | cons s rest ih =>
    -- What follows the first step is not empty, so the removal goes on below it.
    obtain ⟨t, more, htail⟩ : ∃ t more, rest ++ [Segment.key name] = t :: more := by
      cases rest with
      | nil => exact ⟨.key name, [], rfl⟩
      | cons t more => exact ⟨t, more ++ [.key name], rfl⟩
    rw [List.cons_append] at hget ⊢
    rw [htail] at hget ih ⊢
    cases s with
    | key k =>
      cases node with
      | object members =>
        obtain ⟨child, hchild, hinner⟩ := Option.bind_eq_some_iff.mp hget
        cases honce with
        | object _ hmembers =>
          have hmem : (k, child) ∈ members := by
            obtain ⟨before, after, rfl, -⟩ := List.lookup_eq_some_iff.mp hchild
            exact List.mem_append_right _ List.mem_cons_self
          obtain ⟨hone, hloses⟩ := ih (hmembers (k, child) hmem) hinner
          rw [remove_key hchild]
          exact ⟨hone, .under hchild hloses⟩
      | _ => cases hget
    | index i =>
      cases node with
      | array items =>
        obtain ⟨item, hitem, hinner⟩ := Option.bind_eq_some_iff.mp hget
        cases honce with
        | array hitems =>
          obtain ⟨hone, hloses⟩ := ih (hitems item (List.mem_of_getElem? hitem)) hinner
          rw [remove_index hitem]
          exact ⟨hone, .within hitem hloses⟩
      | _ => cases hget
    | each => cases node <;> cases hget

end FieldPath

/-! ## Walking afterwards -/

/-- An ending after a member was taken out, by the endings before. -/
inductive Ending.AfterLoss (location : FieldPath) (before : List Ending) : Ending → Prop
  /-- The walk stops where the member was. -/
  | gone : AfterLoss location before (.stopped location .absent)
  | same {e : Ending} (he : e ∈ before) : AfterLoss location before e
  /-- The walk arrives at a node on the way to the member. -/
  | above {place rest : FieldPath} {node node' : Json} (hbefore : .found place node ∈ before)
    (hsplit : location = place ++ rest) (hloses : Json.Loses rest node node') :
    AfterLoss location before (.found place node')

theorem Ending.AfterLoss.under {location : FieldPath} {before : List Ending} {e : Ending}
    (h : AfterLoss location before e) (base : FieldPath) :
    AfterLoss (base ++ location) (before.map (Ending.under base)) (e.under base) := by
  cases h with
  | gone => exact .gone
  | same he => exact .same (List.mem_map_of_mem he)
  | above hbefore hsplit hloses =>
    exact .above (List.mem_map_of_mem hbefore) (by rw [hsplit, List.append_assoc]) hloses

theorem Ending.AfterLoss.mono {location : FieldPath} {before more : List Ending} {e : Ending}
    (h : AfterLoss location before e) (hmore : ∀ e ∈ before, e ∈ more) :
    AfterLoss location more e := by
  cases h with
  | gone => exact .gone
  | same he => exact .same (hmore _ he)
  | above hbefore hsplit hloses => exact .above (hmore _ hbefore) hsplit hloses

namespace FieldPath

theorem getElem?_set_self {i : Nat} {items : List Json} {item : Json} (h : items[i]? = some item)
    (item' : Json) : (items.set i item')[i]? = some item' := by
  obtain ⟨hlt, -⟩ := List.getElem?_eq_some_iff.mp h
  simp [hlt]

/-- Every ending after a loss is an ending of one of the three sorts. -/
theorem walk_of_loses {location : FieldPath} {node node' : Json}
    (h : Json.Loses location node node') (p : FieldPath) {e : Ending} (he : e ∈ p.walk node') :
    Ending.AfterLoss location (p.walk node) e := by
  -- The walk and the way to the member go down together, until they part or one of them ends.
  induction p generalizing location node node' e with
  | nil =>
    obtain rfl := List.mem_singleton.mp he
    exact .above (List.mem_singleton_self _) rfl h
  | cons s rest ih =>
    cases s with
    | key k =>
      cases h with
      | @member name members hthere hgone =>
        by_cases hk : k = name
        · subst hk
          simp only [walk, hgone, List.mem_singleton] at he
          exact he ▸ .gone
        · refine .same ?_
          simpa only [walk, lookup_eraseMember_of_ne hk] using he
      | @under name members child child' inner hchild hloses =>
        by_cases hk : k = name
        · subst hk
          simp only [walk, lookup_setMember_self hchild, List.mem_map] at he
          obtain ⟨e, he, rfl⟩ := he
          simp only [walk, hchild]
          exact (ih hloses he).under [.key k]
        · refine .same ?_
          simpa only [walk, lookup_setMember_of_ne hk] using he
      | within _ _ => exact .same he
    | index j =>
      cases h with
      | member _ _ => exact .same he
      | under _ _ => exact .same he
      | @within i items item item' inner hitem hloses =>
        by_cases hj : j = i
        · subst hj
          have hset : (items.set j item')[j]? = some item' := getElem?_set_self hitem item'
          simp only [walk, hset, List.mem_map] at he
          obtain ⟨e, he, rfl⟩ := he
          simp only [walk, hitem]
          exact (ih hloses he).under [.index j]
        · refine .same ?_
          simpa only [walk, List.getElem?_set_ne (Ne.symm hj)] using he
    | each =>
      cases h with
      | member _ _ => exact .same he
      | under _ _ => exact .same he
      | @within i items item item' inner hitem hloses =>
        simp only [walk, List.mem_flatMap, Prod.exists, List.mem_zipIdx_iff_getElem?] at he
        obtain ⟨x, j, hx, he⟩ := he
        have hbranch : ∀ y, items[j]? = some y →
            ∀ e ∈ (walk rest y).map (Ending.under [.index j]),
              e ∈ walk (.each :: rest) (.array items) := by
          intro y hy e he
          obtain ⟨inner, hinner, rfl⟩ := List.mem_map.mp he
          exact mem_walk_cons (.each hy) hinner
        by_cases hj : j = i
        · subst hj
          obtain rfl := Option.some.inj ((getElem?_set_self hitem item').symm.trans hx)
          obtain ⟨e, hinner, rfl⟩ := List.mem_map.mp he
          exact ((ih hloses hinner).under [.index j]).mono (hbranch item hitem)
        · rw [List.getElem?_set_ne (Ne.symm hj)] at hx
          exact .same (hbranch x hx e he)

/-- A path that reached the member stops there. -/
theorem stopped_of_loses {location : FieldPath} {node node' target : Json}
    (h : Json.Loses location node node') {p : FieldPath}
    (hfound : .found location target ∈ p.walk node) :
    .stopped location .absent ∈ p.walk node' := by
  induction h generalizing p target with
  | @member name members hthere hgone =>
    cases p with
    | nil => simp [walk] at hfound
    | cons s rest =>
      obtain ⟨t, child, inner, hleads, -, hlocation⟩ := found_of_walk_cons hfound
      obtain ⟨rfl, -⟩ := List.cons.inj hlocation
      cases hleads with
      | key _ => simp [walk, hgone]
  | @under name members child child' location hchild hloses ih =>
    cases p with
    | nil => simp [walk] at hfound
    | cons s rest =>
      obtain ⟨t, other, inner, hleads, hinner, hlocation⟩ := found_of_walk_cons hfound
      obtain ⟨rfl, rfl⟩ := List.cons.inj hlocation
      cases hleads with
      | key hother =>
        obtain rfl := Option.some.inj (hchild.symm.trans hother)
        exact mem_walk_cons (.key (lookup_setMember_self hchild)) (ih hinner)
  | @within i items item item' location hitem hloses ih =>
    cases p with
    | nil => simp [walk] at hfound
    | cons s rest =>
      have hset : (items.set i item')[i]? = some item' := getElem?_set_self hitem item'
      obtain ⟨t, other, inner, hleads, hinner, hlocation⟩ := found_of_walk_cons hfound
      obtain ⟨rfl, rfl⟩ := List.cons.inj hlocation
      cases hleads with
      | index hother =>
        obtain rfl := Option.some.inj (hitem.symm.trans hother)
        exact mem_walk_cons (.index hset) (ih hinner)
      | each hother =>
        obtain rfl := Option.some.inj (hitem.symm.trans hother)
        exact mem_walk_cons (.each hset) (ih hinner)

end FieldPath

end CauseLists
