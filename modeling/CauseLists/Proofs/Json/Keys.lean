-- Objects that have each key once. The readers put the members of an object in the order of their
-- keys and keep one of those with the same key, so whatever they give has each key once.
import CauseLists.Json.Parser

namespace CauseLists

namespace Json

/-- Every object of a document has each key once. -/
inductive KeysOnce : Json → Prop
  | null : KeysOnce .null
  | bool (value : Bool) : KeysOnce (.bool value)
  | number (value : Number) : KeysOnce (.number value)
  | string (value : String) : KeysOnce (.string value)
  | array {items : List Json} (hitems : ∀ x ∈ items, KeysOnce x) : KeysOnce (.array items)
  | object {members : List (String × Json)} (honce : (members.map Prod.fst).Nodup)
    (hmembers : ∀ m ∈ members, KeysOnce m.2) : KeysOnce (.object members)

namespace KeysOnce

theorem lookup_of_mem {members : List (String × Json)} (honce : (members.map Prod.fst).Nodup)
    {m : String × Json} (hm : m ∈ members) : members.lookup m.1 = some m.2 := by
  induction members with
  | nil => cases hm
  | cons first rest ih =>
    obtain ⟨hout, hrest⟩ := List.nodup_cons.mp honce
    obtain ⟨k, v⟩ := first
    rcases List.mem_cons.mp hm with rfl | hm
    · simp
    · have hne : (m.1 == k) = false := by
        refine beq_eq_false_iff_ne.mpr ?_
        intro hsame
        exact hout (List.mem_map.mpr ⟨m, hm, hsame⟩)
      rw [List.lookup_cons, hne]
      exact ih hrest hm

end KeysOnce

/-! ## Members in order -/

/-- The keys stand in ascending order. -/
def Ascending (members : List (String × Json)) : Prop :=
  (members.map Prod.fst).Pairwise (· < ·)

theorem Ascending.nodup {members : List (String × Json)} (h : Ascending members) :
    (members.map Prod.fst).Nodup := by
  refine List.Pairwise.imp ?_ h
  rintro k _ hlt rfl
  exact String.lt_irrefl k hlt

theorem mem_putMember {key : String} {value : Json} {members : List (String × Json)}
    {m : String × Json} (h : m ∈ putMember key value members) :
    m = (key, value) ∨ m ∈ members := by
  induction members with
  | nil => exact .inl (List.mem_singleton.mp h)
  | cons first rest ih =>
    obtain ⟨k, v⟩ := first
    unfold putMember at h
    split at h
    · exact List.mem_cons.mp h
    · split at h
      · rcases List.mem_cons.mp h with h | h
        · exact .inl h
        · exact .inr (List.mem_cons_of_mem _ h)
      · rcases List.mem_cons.mp h with h | h
        · exact .inr (h ▸ List.mem_cons_self)
        · exact (ih h).imp_right (List.mem_cons_of_mem _)

theorem Ascending.putMember {members : List (String × Json)} (h : Ascending members) (key : String)
    (value : Json) : Ascending (putMember key value members) := by
  induction members with
  | nil => simp [Ascending, Json.putMember]
  | cons first rest ih =>
    obtain ⟨k, v⟩ := first
    obtain ⟨hfirst, hrest⟩ := List.pairwise_cons.mp h
    unfold Json.putMember
    split
    · rename_i hlt
      refine List.pairwise_cons.mpr ⟨?_, h⟩
      intro other hother
      rcases List.mem_cons.mp hother with rfl | hother
      · exact hlt
      · exact String.lt_trans hlt (hfirst other hother)
    · split
      · rename_i hsame
        exact List.pairwise_cons.mpr ⟨hsame ▸ hfirst, hrest⟩
      · rename_i hnot hne
        refine List.pairwise_cons.mpr ⟨?_, ih hrest⟩
        intro other hother
        obtain ⟨m, hm, rfl⟩ := List.mem_map.mp hother
        rcases mem_putMember hm with rfl | hm
        · exact Std.lt_of_le_of_ne (String.not_lt.mp hnot) (Ne.symm hne)
        · exact hfirst m.1 (List.mem_map_of_mem hm)

/-- Members that were put in order are ascending, and were there before. -/
theorem foldl_putMember (members start : List (String × Json)) (hstart : Ascending start) :
    Ascending (members.foldl (fun acc m => putMember m.1 m.2 acc) start) ∧
      ∀ m ∈ members.foldl (fun acc m => putMember m.1 m.2 acc) start, m ∈ start ∨ m ∈ members := by
  induction members generalizing start with
  | nil => exact ⟨hstart, fun m hm => .inl hm⟩
  | cons first rest ih =>
    obtain ⟨hascending, hmem⟩ := ih _ (hstart.putMember first.1 first.2)
    refine ⟨hascending, ?_⟩
    intro m hm
    rcases hmem m hm with hm | hm
    · rcases mem_putMember hm with rfl | hm
      · exact .inr List.mem_cons_self
      · exact .inl hm
    · exact .inr (List.mem_cons_of_mem _ hm)

theorem ascending_sortMembers (members : List (String × Json)) : Ascending (sortMembers members) :=
  (foldl_putMember members [] List.Pairwise.nil).1

theorem mem_of_mem_sortMembers {members : List (String × Json)} {m : String × Json}
    (h : m ∈ sortMembers members) : m ∈ members :=
  ((foldl_putMember members [] List.Pairwise.nil).2 m h).resolve_left List.not_mem_nil

/-! ## Documents in order -/

mutual

/-- A document in order has each key once. -/
theorem keysOnce_canonical (json : Json) : json.canonical.KeysOnce := by
  cases json with
  | null => exact .null
  | bool value => exact .bool value
  | number value => exact .number value
  | string value => exact .string value
  | array items => exact .array (keysOnce_canonicalItems items)
  | object members =>
    exact .object (ascending_sortMembers _).nodup
      (fun m hm => keysOnce_canonicalMembers members m (mem_of_mem_sortMembers hm))

theorem keysOnce_canonicalItems (items : List Json) : ∀ x ∈ canonicalItems items, x.KeysOnce := by
  cases items with
  | nil => exact fun x hx => absurd hx List.not_mem_nil
  | cons first rest =>
    intro x hx
    rcases List.mem_cons.mp hx with rfl | hx
    · exact keysOnce_canonical first
    · exact keysOnce_canonicalItems rest x hx

theorem keysOnce_canonicalMembers (members : List (String × Json)) :
    ∀ m ∈ canonicalMembers members, m.2.KeysOnce := by
  cases members with
  | nil => exact fun m hm => absurd hm List.not_mem_nil
  | cons first rest =>
    obtain ⟨k, x⟩ := first
    intro m hm
    rcases List.mem_cons.mp hm with rfl | hm
    · exact keysOnce_canonical x
    · exact keysOnce_canonicalMembers rest m hm

end

/-- Whatever is read has each key once. -/
theorem keysOnce_of_parse {bytes : Bytes} {json : Json} (h : parse bytes = .ok json) :
    json.KeysOnce := by
  unfold parse at h
  cases hwritten : parseWritten bytes with
  | error e =>
    rw [hwritten] at h
    cases h
  | ok written =>
    rw [hwritten] at h
    obtain rfl := Except.ok.inj h
    exact keysOnce_canonical written

end Json

end CauseLists
