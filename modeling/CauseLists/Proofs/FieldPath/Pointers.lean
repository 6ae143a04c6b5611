-- Locations that travel as JSON pointers. The escapes of a key are undone exactly, so a location
-- comes back as it was, but for keys that are written like the number of an element: each of them
-- comes back as that number, and no document that has the location can be followed along it then.
import CauseLists.FieldPath.Walk
import CauseLists.Proofs.FieldPath.Writing
import Mathlib.Data.List.Forall2

namespace CauseLists

/-- A step comes back from a pointer as itself, or as an index if it is a key that is written like
the number of an element: in ASCII digits, behind at most one plus sign and within 64 bits. -/
inductive Segment.ComesBack : Segment → Segment → Prop
  | index (i : Nat) : ComesBack (.index i) (.index i)
  | key {name : String} (h : ∀ i, ¬ FieldPath.WritesInner (.index i) name.toList) :
    ComesBack (.key name) (.key name)
  | numeral {name : String} {i : Nat} (h : FieldPath.WritesInner (.index i) name.toList) :
    ComesBack (.key name) (.index i)

namespace FieldPath

/-! ## Escapes -/

/-- A text in which every occurrence of two characters in a row is replaced, from left to right. -/
def replacePair (first second other : Char) : List Char → List Char
  | c :: d :: rest =>
    if c = first ∧ d = second then other :: replacePair first second other rest
    else c :: replacePair first second other (d :: rest)
  | cs => cs

theorem replacePair_cons_of_ne {first second other c : Char} (h : c ≠ first) (cs : List Char) :
    replacePair first second other (c :: cs) = c :: replacePair first second other cs := by
  cases cs with
  | nil => rfl
  | cons d rest => simp [replacePair, h]

theorem replacePair_cons_of_head {first second other c : Char} {cs : List Char}
    (h : cs.head? ≠ some second) :
    replacePair first second other (c :: cs) = c :: replacePair first second other cs := by
  cases cs with
  | nil => rfl
  | cons d rest =>
    have hd : d ≠ second := fun hd => h (congrArg some hd)
    simp [replacePair, hd]

theorem head?_replacePair (first second other : Char) (cs : List Char) :
    (replacePair first second other cs).head? = cs.head? ∨
      (replacePair first second other cs).head? = some other := by
  cases cs with
  | nil => exact .inl rfl
  | cons c cs =>
    cases cs with
    | nil => exact .inl rfl
    | cons d rest =>
      unfold replacePair
      split
      · exact .inr rfl
      · exact .inl rfl

/-- The escapes of a token may be undone one after the other: all those of slashes first, and then
those of tildes. -/
theorem unescapeToken_eq (token : List Char) :
    unescapeToken token = replacePair '~' '0' '~' (replacePair '~' '1' '/' token) := by
  fun_induction unescapeToken token with
  | case1 rest ih =>
    rw [replacePair, if_pos ⟨rfl, rfl⟩, replacePair_cons_of_ne (by decide), ih]
  | case2 rest ih =>
    have hdigit : '0' ≠ '~' := by decide
    rw [replacePair, if_neg (by decide), replacePair_cons_of_ne hdigit, replacePair,
      if_pos ⟨rfl, rfl⟩, ih]
  | case3 c rest hslash htilde ih =>
    by_cases hc : c = '~'
    · subst hc
      -- What follows is neither digit, and a slash that is put there is none either.
      have hone : rest.head? ≠ some '1' := by
        intro h
        obtain ⟨more, rfl⟩ := List.head?_eq_some_iff.mp h
        exact hslash more rfl rfl
      have hzero : (replacePair '~' '1' '/' rest).head? ≠ some '0' := by
        rcases head?_replacePair '~' '1' '/' rest with h | h
        · rw [h]
          intro h
          obtain ⟨more, rfl⟩ := List.head?_eq_some_iff.mp h
          exact htilde more rfl rfl
        · rw [h]
          decide
      rw [replacePair_cons_of_head hone, replacePair_cons_of_head hzero, ih]
    · rw [replacePair_cons_of_ne hc, replacePair_cons_of_ne hc, ih]
  | case4 => rfl

theorem unescapeToken_cons_of_ne {c : Char} (h : c ≠ '~') (cs : List Char) :
    unescapeToken (c :: cs) = c :: unescapeToken cs := by
  conv_lhs => unfold unescapeToken
  split <;> simp_all

/-- Undoing the escapes of a key gives the key. -/
theorem unescapeToken_escapeToken (key : List Char) : unescapeToken (escapeToken key) = key := by
  induction key with
  | nil => rfl
  | cons c rest ih =>
    unfold escapeToken
    split
    · rename_i htilde
      rw [htilde, unescapeToken, ih]
    · split
      · rename_i hslash
        rw [hslash, unescapeToken, ih]
      · rename_i htilde hslash
        rw [unescapeToken_cons_of_ne htilde, ih]

theorem unescapeToken_of_notMem {cs : List Char} (h : '~' ∉ cs) : unescapeToken cs = cs := by
  induction cs with
  | nil => rfl
  | cons c rest ih =>
    rw [List.mem_cons, not_or] at h
    rw [unescapeToken_cons_of_ne (Ne.symm h.1), ih h.2]

theorem slash_notMem_escapeToken (key : List Char) : '/' ∉ escapeToken key := by
  induction key with
  | nil => simp [escapeToken]
  | cons c rest ih =>
    unfold escapeToken
    split
    · simp [ih]
    · split
      · simp [ih]
      · rename_i htilde hslash
        simp [ih, Ne.symm hslash]

/-! ## Single steps -/

/-- A step after it was written into a pointer and read again. -/
def reread (s : Segment) : Segment := tokenStep (unescapeToken (stepToken s))

theorem slash_notMem_stepToken (s : Segment) : '/' ∉ stepToken s := by
  cases s with
  | key name => exact slash_notMem_escapeToken name.toList
  | each => decide
  | index i =>
    intro h
    have hdigit := Text.digits_toDigits i '/' (by simpa [stepToken] using h)
    exact absurd hdigit (by decide)

theorem intercalate_cons (separator : Char) (t : List Char) (ts : List (List Char)) :
    [separator].intercalate (t :: ts) = t ++ ts.flatMap (separator :: ·) := by
  induction ts generalizing t with
  | nil => simp
  | cons u ts ih => simp [List.intercalate_cons_cons, ih]

/-- A pointer is read step by step. -/
theorem ofPointer_pointer (p : FieldPath) : ofPointer p.pointer = p.map reread := by
  have hjoined : p.pointer.toList = ['/'].intercalate ([] :: p.map stepToken) := by
    rw [pointer, String.toList_ofList, intercalate_cons, List.flatMap_map, List.nil_append]
  have htokens : tokens p.pointer = [] :: p.map stepToken := by
    rw [tokens, hjoined]
    refine List.splitOn_intercalate '/' ?_ (by simp)
    intro token htoken
    rcases List.mem_cons.mp htoken with rfl | htoken
    · simp
    · obtain ⟨s, -, rfl⟩ := List.mem_map.mp htoken
      exact slash_notMem_stepToken s
  rw [ofPointer, htokens, List.drop_one, List.tail_cons, List.map_map]
  rfl

/-! ## Steps that come back -/

theorem reread_key (name : String) :
    (∃ i, WritesInner (.index i) name.toList ∧ reread (.key name) = .index i) ∨
      (∀ i, ¬ WritesInner (.index i) name.toList) ∧ reread (.key name) = .key name := by
  unfold reread stepToken tokenStep
  dsimp only
  rw [unescapeToken_escapeToken]
  split
  · rename_i i hread
    exact .inl ⟨i, (readNatural_eq_some_iff_writesInner _ i).mp hread, rfl⟩
  · rename_i hnone
    refine .inr ⟨?_, by rw [String.ofList_toList]⟩
    intro i h
    rw [(readNatural_eq_some_iff_writesInner _ i).mpr h] at hnone
    cases hnone

theorem unescapeToken_stepToken_index (i : Nat) :
    unescapeToken (stepToken (.index i)) = Nat.toDigits 10 i := by
  have hplain : '~' ∉ Nat.toDigits 10 i := by
    intro h
    exact absurd (Text.digits_toDigits i '~' h) (by decide)
  simpa [stepToken] using unescapeToken_of_notMem hplain

theorem reread_index {i : Nat} (h : i ≤ Text.maxWord64) : reread (.index i) = .index i := by
  rw [reread, unescapeToken_stepToken_index, tokenStep,
    (readNatural_eq_some_iff_writesInner _ i).mpr (writesInner_index h)]

/-- A number that is too large comes back as a key. -/
theorem reread_index_of_lt {i : Nat} (h : Text.maxWord64 < i) :
    reread (.index i) = .key (String.ofList (Nat.toDigits 10 i)) := by
  rw [reread, unescapeToken_stepToken_index, tokenStep]
  cases hread : Text.readNatural Text.maxWord64 (Nat.toDigits 10 i) with
  | none => rfl
  | some j =>
    obtain ⟨sign, digits, hsign, -, -, hvalue, hbound, htext⟩ :=
      (Text.readNatural_eq_some_iff _ _ _).mp hread
    rcases hsign with rfl | rfl
    · rw [List.nil_append] at htext
      rw [← htext, Text.valueOf_toDigits] at hvalue
      omega
    · have hplus := Text.digits_toDigits i '+' (by simp [htext])
      exact absurd hplus (by decide)

/-- What comes back of a location whose indices have 64 bits at most. -/
theorem comesBack {p : FieldPath} (hconcrete : p.isConcrete = true)
    (hindices : ∀ i, .index i ∈ p → i ≤ Text.maxWord64) :
    List.Forall₂ Segment.ComesBack p (ofPointer p.pointer) := by
  have heach : .each ∉ p := by simpa [isConcrete] using hconcrete
  rw [ofPointer_pointer, List.forall₂_map_right_iff, List.forall₂_same]
  intro s hs
  cases s with
  | key name =>
    rcases reread_key name with ⟨i, hinner, hback⟩ | ⟨hnone, hback⟩
    · rw [hback]
      exact .numeral hinner
    · rw [hback]
      exact .key hnone
  | each => exact absurd hs heach
  | index i =>
    rw [reread_index (hindices i hs)]
    exact .index i

/-- A location comes back as it was exactly if none of its keys is written like an index. -/
theorem ofPointer_pointer_eq_self_iff {p : FieldPath} (hconcrete : p.isConcrete = true)
    (hindices : ∀ i, .index i ∈ p → i ≤ Text.maxWord64) :
    ofPointer p.pointer = p ↔
      ∀ name, .key name ∈ p → ∀ i, ¬ WritesInner (.index i) name.toList := by
  have hback := comesBack hconcrete hindices
  constructor
  · intro hsame name hname
    rw [hsame, List.forall₂_same] at hback
    cases hback _ hname with
    | key hnone => exact hnone
  · intro hplain
    have hsteps : ∀ s ∈ p, reread s = id s := by
      intro s hs
      cases s with
      | key name =>
        rcases reread_key name with ⟨i, hinner, -⟩ | ⟨-, hself⟩
        · exact absurd hinner (hplain name hs i)
        · exact hself
      | each => exact absurd (by simpa [isConcrete] using hconcrete) (not_not_intro hs)
      | index i => exact reread_index (hindices i hs)
    rw [ofPointer_pointer, List.map_congr_left hsteps, List.map_id]

/-! ## Lookups -/

/-- A step that did not come back as itself leads nowhere in a node that it led into before. -/
theorem get?_reread {s : Segment} {rest more : FieldPath} {node target : Json}
    (hget : get? (s :: rest) node = some target) (hchanged : reread s ≠ s) :
    get? (reread s :: more) node = none := by
  cases s with
  | key name =>
    rcases reread_key name with ⟨i, -, hback⟩ | ⟨-, hback⟩
    · rw [hback]
      cases node with
      | object members => rfl
      | _ => cases hget
    · exact absurd hback hchanged
  | each => cases node <;> cases hget
  | index i =>
    have hlarge : Text.maxWord64 < i := by
      by_contra hsmall
      exact hchanged (reread_index (Nat.le_of_not_lt hsmall))
    rw [reread_index_of_lt hlarge]
    cases node with
    | array items => rfl
    | _ => cases hget

/-- A location that did not come back as itself cannot be followed any more, nor can any below
it. -/
theorem get?_ofPointer {p : FieldPath} {node target : Json} (hget : p.get? node = some target)
    (hchanged : ofPointer p.pointer ≠ p) (more : FieldPath) :
    get? (ofPointer p.pointer ++ more) node = none := by
  rw [ofPointer_pointer] at hchanged ⊢
  induction p generalizing node with
  | nil => exact absurd rfl hchanged
  | cons s rest ih =>
    rw [List.map_cons, List.cons_append]
    by_cases hs : reread s = s
    · rw [hs]
      have hrest : rest.map reread ≠ rest := by
        intro hrest
        exact hchanged (by rw [List.map_cons, hs, hrest])
      cases s with
      | key name =>
        cases node with
        | object members =>
          rw [get?] at hget ⊢
          obtain ⟨child, hchild, hinner⟩ := Option.bind_eq_some_iff.mp hget
          rw [hchild]
          exact ih hinner hrest
        | _ => cases hget
      | each => cases node <;> cases hget
      | index i =>
        cases node with
        | array items =>
          rw [get?] at hget ⊢
          obtain ⟨child, hchild, hinner⟩ := Option.bind_eq_some_iff.mp hget
          rw [hchild]
          exact ih hinner hrest
        | _ => cases hget
    · exact get?_reread hget hs

end FieldPath

end CauseLists
