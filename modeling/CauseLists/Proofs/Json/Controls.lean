-- Control characters. A document without them is told apart from every other one by what it keeps:
-- its shape, its keys and everything that is no string. Taking them out of a document that has none
-- changes nothing, so it does not matter that such a document is left as it is.
import CauseLists.Json.Basic

namespace CauseLists

namespace Json

section

variable {p : String → Bool} {f : String → String}

mutual

/-- A change that leaves every string of a document alone leaves the document alone. -/
theorem mapStrings_of_anyString_eq_false (hf : ∀ s, p s = false → f s = s) (json : Json)
    (h : json.anyString p = false) : json.mapStrings f = json := by
  cases json with
  | string s => exact congrArg Json.string (hf s h)
  | array items => exact congrArg Json.array (mapStringsItems_of_anyString_eq_false hf items h)
  | object members =>
    exact congrArg Json.object (mapStringsMembers_of_anyString_eq_false hf members h)
  | null => rfl
  | bool _ => rfl
  | number _ => rfl

theorem mapStringsItems_of_anyString_eq_false (hf : ∀ s, p s = false → f s = s)
    (items : List Json) (h : anyStringItems p items = false) : mapStringsItems f items = items := by
  cases items with
  | nil => rfl
  | cons x xs =>
    rw [anyStringItems, Bool.or_eq_false_iff] at h
    rw [mapStringsItems, mapStrings_of_anyString_eq_false hf x h.1,
      mapStringsItems_of_anyString_eq_false hf xs h.2]

theorem mapStringsMembers_of_anyString_eq_false (hf : ∀ s, p s = false → f s = s)
    (members : List (String × Json)) (h : anyStringMembers p members = false) :
    mapStringsMembers f members = members := by
  cases members with
  | nil => rfl
  | cons m ms =>
    obtain ⟨k, x⟩ := m
    rw [anyStringMembers, Bool.or_eq_false_iff] at h
    rw [mapStringsMembers, mapStrings_of_anyString_eq_false hf x h.1,
      mapStringsMembers_of_anyString_eq_false hf ms h.2]

end

end

section

variable {p : String → Bool} {f : String → String}

mutual

/-- A change that leaves a document alone leaves every string of it alone. -/
theorem anyString_eq_false_of_mapStrings (hf : ∀ s, f s = s → p s = false) (json : Json)
    (h : json.mapStrings f = json) : json.anyString p = false := by
  cases json with
  | string s => exact hf s (string.inj h)
  | array items => exact anyStringItems_eq_false_of_mapStrings hf items (array.inj h)
  | object members => exact anyStringMembers_eq_false_of_mapStrings hf members (object.inj h)
  | null => rfl
  | bool _ => rfl
  | number _ => rfl

theorem anyStringItems_eq_false_of_mapStrings (hf : ∀ s, f s = s → p s = false)
    (items : List Json) (h : mapStringsItems f items = items) : anyStringItems p items = false := by
  cases items with
  | nil => rfl
  | cons x xs =>
    obtain ⟨hx, hxs⟩ := List.cons.inj h
    rw [anyStringItems, anyString_eq_false_of_mapStrings hf x hx,
      anyStringItems_eq_false_of_mapStrings hf xs hxs]
    rfl

theorem anyStringMembers_eq_false_of_mapStrings (hf : ∀ s, f s = s → p s = false)
    (members : List (String × Json)) (h : mapStringsMembers f members = members) :
    anyStringMembers p members = false := by
  cases members with
  | nil => rfl
  | cons m ms =>
    obtain ⟨k, x⟩ := m
    obtain ⟨hm, hms⟩ := List.cons.inj h
    rw [anyStringMembers, anyString_eq_false_of_mapStrings hf x (Prod.mk.inj hm).2,
      anyStringMembers_eq_false_of_mapStrings hf ms hms]
    rfl

end

end

section

variable {f g : String → String}

mutual

/-- Two changes made one after the other. -/
theorem mapStrings_mapStrings (json : Json) :
    (json.mapStrings f).mapStrings g = json.mapStrings (fun s => g (f s)) := by
  cases json with
  | array items => exact congrArg array (mapStringsItems_mapStringsItems items)
  | object members => exact congrArg object (mapStringsMembers_mapStringsMembers members)
  | string s => rfl
  | null => rfl
  | bool _ => rfl
  | number _ => rfl

theorem mapStringsItems_mapStringsItems (items : List Json) :
    mapStringsItems g (mapStringsItems f items) = mapStringsItems (fun s => g (f s)) items := by
  cases items with
  | nil => rfl
  | cons x xs =>
    rw [mapStringsItems, mapStringsItems, mapStringsItems, mapStrings_mapStrings x,
      mapStringsItems_mapStringsItems xs]

theorem mapStringsMembers_mapStringsMembers (members : List (String × Json)) :
    mapStringsMembers g (mapStringsMembers f members) =
      mapStringsMembers (fun s => g (f s)) members := by
  cases members with
  | nil => rfl
  | cons m ms =>
    obtain ⟨k, x⟩ := m
    rw [mapStringsMembers, mapStringsMembers, mapStringsMembers, mapStrings_mapStrings x,
      mapStringsMembers_mapStringsMembers ms]

end

end

/-! ## What is taken out -/

mutual

/-- A document is another one without the control characters in its strings: the same shape, the
same keys and the same values but for the strings. -/
inductive Stripped : Json → Json → Prop
  | null : Stripped .null .null
  | bool (b : Bool) : Stripped (.bool b) (.bool b)
  | number (n : Number) : Stripped (.number n) (.number n)
  | string (s : String) : Stripped (.string s) (.string (Text.withoutControls s))
  | array {items items' : List Json} (h : StrippedItems items items') :
    Stripped (.array items) (.array items')
  | object {members members' : List (String × Json)} (h : StrippedMembers members members') :
    Stripped (.object members) (.object members')

/-- As many items, each of them stripped. -/
inductive StrippedItems : List Json → List Json → Prop
  | nil : StrippedItems [] []
  | cons {x x' : Json} {xs xs' : List Json} (h : Stripped x x') (hs : StrippedItems xs xs') :
    StrippedItems (x :: xs) (x' :: xs')

/-- The same keys in the same order, the value of each of them stripped. -/
inductive StrippedMembers : List (String × Json) → List (String × Json) → Prop
  | nil : StrippedMembers [] []
  | cons {k : String} {x x' : Json} {xs xs' : List (String × Json)} (h : Stripped x x')
    (hs : StrippedMembers xs xs') : StrippedMembers ((k, x) :: xs) ((k, x') :: xs')

end

mutual

theorem stripped_iff (json json' : Json) : Stripped json json' ↔ json' = json.withoutControls := by
  cases json with
  | string s =>
    refine ⟨?_, fun h => h ▸ .string s⟩
    rintro ⟨⟩
    rfl
  | array items =>
    constructor
    · rintro ⟨⟩
      rename_i items' h
      exact congrArg array ((strippedItems_iff items items').mp h)
    · rintro rfl
      exact .array ((strippedItems_iff items _).mpr rfl)
  | object members =>
    constructor
    · rintro ⟨⟩
      rename_i members' h
      exact congrArg object ((strippedMembers_iff members members').mp h)
    · rintro rfl
      exact .object ((strippedMembers_iff members _).mpr rfl)
  | null =>
    refine ⟨?_, fun h => h ▸ .null⟩
    rintro ⟨⟩
    rfl
  | bool b =>
    refine ⟨?_, fun h => h ▸ .bool b⟩
    rintro ⟨⟩
    rfl
  | number n =>
    refine ⟨?_, fun h => h ▸ .number n⟩
    rintro ⟨⟩
    rfl

theorem strippedItems_iff (items items' : List Json) :
    StrippedItems items items' ↔ items' = mapStringsItems Text.withoutControls items := by
  cases items with
  | nil =>
    refine ⟨?_, fun h => h ▸ .nil⟩
    rintro ⟨⟩
    rfl
  | cons x xs =>
    constructor
    · rintro (_ | ⟨h, hs⟩)
      rw [(stripped_iff x _).mp h, (strippedItems_iff xs _).mp hs]
      rfl
    · rintro rfl
      exact .cons ((stripped_iff x _).mpr rfl) ((strippedItems_iff xs _).mpr rfl)

theorem strippedMembers_iff (members members' : List (String × Json)) :
    StrippedMembers members members' ↔
      members' = mapStringsMembers Text.withoutControls members := by
  cases members with
  | nil =>
    refine ⟨?_, fun h => h ▸ .nil⟩
    rintro ⟨⟩
    rfl
  | cons m ms =>
    obtain ⟨k, x⟩ := m
    constructor
    · rintro (_ | ⟨h, hs⟩)
      rw [(stripped_iff x _).mp h, (strippedMembers_iff ms _).mp hs]
      rfl
    · rintro rfl
      exact .cons ((stripped_iff x _).mpr rfl) ((strippedMembers_iff ms _).mpr rfl)

end

/-! ## Texts -/

theorem toList_withoutControls (s : String) :
    (Text.withoutControls s).toList = s.toList.filter (fun c => !Text.isControl c) := by
  rw [Text.withoutControls, String.toList_ofList]

theorem any_isControl_withoutControls (s : String) :
    (Text.withoutControls s).toList.any Text.isControl = false := by
  rw [toList_withoutControls, List.any_eq_false]
  intro c hc
  simpa using (List.mem_filter.mp hc).2

theorem withoutControls_text_of_none {s : String} (h : s.toList.any Text.isControl = false) :
    Text.withoutControls s = s := by
  rw [List.any_eq_false] at h
  have hkeep : s.toList.filter (fun c => !Text.isControl c) = s.toList := by
    rw [List.filter_eq_self]
    intro c hc
    simpa using h c hc
  rw [Text.withoutControls, hkeep, String.ofList_toList]

/-! ## Documents -/

/-- A document is left as it is exactly if nothing has to be taken out of it. -/
theorem hasControls_eq_false_iff (json : Json) :
    json.hasControls = false ↔ json.withoutControls = json := by
  constructor
  · exact mapStrings_of_anyString_eq_false (fun _ => withoutControls_text_of_none) json
  · refine anyString_eq_false_of_mapStrings ?_ json
    intro s hs
    exact hs ▸ any_isControl_withoutControls s

theorem cleaned_eq_withoutControls (json : Json) : json.cleaned = json.withoutControls := by
  unfold cleaned
  split
  · rfl
  · rename_i hnone
    exact ((hasControls_eq_false_iff json).mp (Bool.eq_false_iff.mpr hnone)).symm

theorem withoutControls_withoutControls (json : Json) :
    json.withoutControls.withoutControls = json.withoutControls := by
  have htext : ∀ s, Text.withoutControls (Text.withoutControls s) = Text.withoutControls s :=
    fun s => withoutControls_text_of_none (any_isControl_withoutControls s)
  rw [withoutControls, withoutControls, mapStrings_mapStrings, funext htext]

end Json

end CauseLists
