-- A small library of regular expressions: letters and digits, groups without a name, bars and the
-- two anchors. It keeps every law of the language of such libraries, which shows that they agree.
import CauseLists.Proofs.Pattern.Matching
import CauseLists.Proofs.Pattern.Syntax

namespace CauseLists

/-! ## Matches by numbers of characters -/

namespace Position

variable {cs : List Char} {p : Position}

/-- Every number of characters of a text lies before some place of it. -/
theorem exists_mem_onward (first : Nat) (before : Option Char) (cs : List Char) {i : Nat}
    (h : i ≤ cs.length) : ∃ p ∈ onward first before cs, p.index = first + i := by
  induction cs generalizing first before i with
  | nil =>
    obtain rfl := Nat.le_zero.mp h
    exact ⟨_, List.mem_singleton_self _, rfl⟩
  | cons c rest ih =>
    cases i with
    | zero => exact ⟨_, List.mem_cons_self, rfl⟩
    | succ i =>
      obtain ⟨p, hp, hindex⟩ := ih (first + 1) (some c) (Nat.le_of_succ_le_succ h)
      exact ⟨p, List.mem_cons_of_mem _ hp, by omega⟩

/-- Nothing lies before the first place of a text only. -/
theorem Of.before_isNone_iff (h : p.Of cs) : p.before.isNone = true ↔ p.index = 0 := by
  obtain ⟨front, -, hindex, hbefore⟩ := h
  rw [hindex, hbefore, Option.isNone_iff_eq_none, List.getLast?_eq_none_iff,
    List.length_eq_zero_iff]

theorem of_mem {value : String} (h : p ∈ onward 0 none value.toList) : p.Of value.toList :=
  @of_onward p [] value.toList h

theorem Of.rest_isEmpty_iff (h : p.Of cs) : p.rest.isEmpty = true ↔ p.index = cs.length := by
  have hlength := h.index_add_length
  rw [List.isEmpty_iff, ← List.length_eq_zero_iff]
  omega

end Position

namespace Expr

/-- The matches of an expression in a value. -/
def matching (e : Expr) : Matching := fun value i j =>
  ∃ p ∈ Position.onward 0 none value.toList, ∃ q, p.index = i ∧ q.index = j ∧ e.Matches p q

theorem occursIn_iff_matching (e : Expr) (value : String) :
    e.occursIn value = true ↔ ∃ i j, e.matching value i j := by
  rw [occursIn_iff]
  constructor
  · rintro ⟨p, hp, q, hmatch⟩
    exact ⟨_, _, p, hp, q, rfl, rfl, hmatch⟩
  · rintro ⟨_, _, p, hp, q, rfl, rfl, hmatch⟩
    exact ⟨p, hp, q, hmatch⟩

/-- Expressions one after another, the last one first. -/
def ofRow : List Expr → Expr
  | [] => .empty
  | e :: before => .seq (ofRow before) e

theorem matches_ofRow_append {more before : List Expr} {p r : Position} :
    (ofRow (more ++ before)).Matches p r ↔
      ∃ q, (ofRow before).Matches p q ∧ (ofRow more).Matches q r := by
  induction more generalizing r with
  | nil => simp [ofRow, Matches]
  | cons e more ih =>
    simp only [List.cons_append, ofRow, Matches, ih]
    constructor
    · rintro ⟨q, ⟨q', hbefore, hmore⟩, he⟩
      exact ⟨q', hbefore, q, hmore, he⟩
    · rintro ⟨q', hbefore, q, hmore, he⟩
      exact ⟨q, ⟨q', hbefore, hmore⟩, he⟩

theorem matches_ofRow_singleton {e : Expr} {p q : Position} :
    (ofRow [e]).Matches p q ↔ e.Matches p q := by
  simp [ofRow, Matches]

end Expr

namespace Letters

/-! ## Reading -/

/-- A group of which the end has not been read: its earlier branches, and the items since the last
bar, the last of them first. -/
structure Group where
  branches : List Expr
  row : List Expr

namespace Group

def start : Group := ⟨[], []⟩

def push (g : Group) (e : Expr) : Group := { g with row := e :: g.row }

def bar (g : Group) : Group := ⟨.ofRow g.row :: g.branches, []⟩

/-- The branches as a choice. -/
def expr (g : Group) : Expr := g.branches.foldl .alt (.ofRow g.row)

end Group

/-- A character that is an expression by itself. -/
def item? (c : Char) : Option Expr :=
  if c = '^' then some (.assertion .textStart)
  else if c = '$' then some (.assertion .textEnd)
  else if c.isAlphanum then some (.set (.single c))
  else none

/-- Reads a text into the innermost open group and those around it. -/
def read : List Char → Group → List Group → Option (Group × List Group)
  | [], g, outer => some (g, outer)
  | '(' :: '?' :: ':' :: rest, g, outer => read rest .start (g :: outer)
  | ')' :: rest, g, o :: outer => read rest (o.push g.expr) outer
  | '|' :: rest, g, outer => read rest g.bar outer
  | c :: rest, g, outer => (item? c).bind (fun e => read rest (g.push e) outer)

/-- The expression of a text. -/
def parse (text : String) : Option Expr :=
  match read text.toList .start [] with
  | some (g, []) => some g.expr
  | _ => none

/-- The library. -/
def library : RegexLibrary where
  compile text :=
    match parse text with
    | some e => .ok e.occursIn
    | none => .error "not an expression"

/-- Its language. It knows no comments and has no limits. -/
def language : RegexSyntax where
  Expression text m := ∃ e, parse text = some e ∧ ∀ value i j, m value i j ↔ e.matching value i j
  Row text m := ∃ es,
    (∀ g outer, read text.toList g outer = some ({ g with row := es ++ g.row }, outer)) ∧
    ∀ value i j, m value i j ↔ (Expr.ofRow es).matching value i j
  EndsInComment _ := False
  Fits _ := True

/-! ## How texts are read in turn -/

variable {cs ds : List Char} {g g' : Group} {outer outer' : List Group}

theorem read_item {c : Char} {e : Expr} (h : item? c = some e) (rest : List Char) (g : Group)
    (outer : List Group) : read (c :: rest) g outer = read rest (g.push e) outer := by
  have hopen : c ≠ '(' := by
    rintro rfl
    cases h
  have hclose : c ≠ ')' := by
    rintro rfl
    cases h
  have hbar : c ≠ '|' := by
    rintro rfl
    cases h
  rw [read, h, Option.bind_some] <;> intros <;> contradiction

theorem read_append (h : read cs g outer = some (g', outer')) (ds : List Char) :
    read (cs ++ ds) g outer = read ds g' outer' := by
  fun_induction read cs g outer with
  | case1 g outer =>
    obtain ⟨rfl, rfl⟩ := Prod.mk.inj (Option.some.inj h)
    rfl
  | case2 rest g outer ih => exact ih h
  | case3 rest g o outer ih => exact ih h
  | case4 rest g outer ih => exact ih h
  | case5 c rest g outer _ _ _ ih =>
    obtain ⟨e, he, h⟩ := Option.bind_eq_some_iff.mp h
    rw [List.cons_append, read_item he]
    exact ih e h

/-- The groups around those that a text closes are left alone. -/
theorem read_inside (h : read cs g outer = some (g', outer')) (around : List Group) :
    read cs g (outer ++ around) = some (g', outer' ++ around) := by
  fun_induction read cs g outer with
  | case1 g outer =>
    obtain ⟨rfl, rfl⟩ := Prod.mk.inj (Option.some.inj h)
    rfl
  | case2 rest g outer ih => exact ih h
  | case3 rest g o outer ih => exact ih h
  | case4 rest g outer ih => exact ih h
  | case5 c rest g outer _ _ _ ih =>
    obtain ⟨e, he, h⟩ := Option.bind_eq_some_iff.mp h
    rw [read_item he]
    exact ih e h

/-- A group that is closed in the end is closed by some parenthesis. -/
theorem exists_close {around : Group} (outer : List Group)
    (h : read cs g (outer ++ [around]) = some (g', [])) :
    ∃ x rest inner, cs = x ++ ')' :: rest ∧ read x g outer = some (inner, []) := by
  generalize hall : outer ++ [around] = all at h
  fun_induction read cs g all generalizing outer with
  | case1 g all =>
    obtain ⟨-, rfl⟩ := Prod.mk.inj (Option.some.inj h)
    simp at hall
  | case2 rest g all ih =>
    subst hall
    obtain ⟨x, more, inner, rfl, hx⟩ := ih (g :: outer) rfl h
    exact ⟨'(' :: '?' :: ':' :: x, more, inner, rfl, hx⟩
  | case3 rest g o all ih =>
    cases outer with
    | nil => exact ⟨[], rest, g, rfl, rfl⟩
    | cons first outer =>
      obtain ⟨rfl, rfl⟩ := List.cons.inj hall
      obtain ⟨x, more, inner, rfl, hx⟩ := ih outer rfl h
      exact ⟨')' :: x, more, inner, rfl, hx⟩
  | case4 rest g all ih =>
    obtain ⟨x, more, inner, rfl, hx⟩ := ih outer hall h
    exact ⟨'|' :: x, more, inner, rfl, hx⟩
  | case5 c rest g all _ _ _ ih =>
    obtain ⟨e, he, h⟩ := Option.bind_eq_some_iff.mp h
    obtain ⟨x, more, inner, rfl, hx⟩ := ih e outer hall h
    exact ⟨c :: x, more, inner, rfl, (read_item he x g outer).trans hx⟩

theorem parse_eq_some_iff {text : String} {e : Expr} :
    parse text = some e ↔ ∃ g : Group, read text.toList .start [] = some (g, []) ∧ g.expr = e := by
  unfold parse
  split
  · rename_i g hread
    simp [hread]
  · rename_i hno
    constructor
    · rintro ⟨⟩
    · rintro ⟨g, hread, -⟩
      exact absurd hread (hno g)

/-- A text by itself is an expression. -/
theorem valid_iff {text : String} :
    language.Valid text ↔ ∃ g, read text.toList .start [] = some (g, []) := by
  constructor
  · rintro ⟨-, e, he, -⟩
    obtain ⟨g, hread, -⟩ := parse_eq_some_iff.mp he
    exact ⟨g, hread⟩
  · rintro ⟨g, hread⟩
    exact ⟨_, g.expr, parse_eq_some_iff.mpr ⟨g, hread, rfl⟩, fun _ _ _ => Iff.rfl⟩

/-- One more item in front of a row. -/
theorem matching_ofRow_append {more before : List Expr} {value : String} {i j : Nat} :
    (Expr.ofRow (more ++ before)).matching value i j ↔
      ∃ p ∈ Position.onward 0 none value.toList, ∃ q r, p.index = i ∧ r.index = j ∧
        (Expr.ofRow before).Matches p q ∧ (Expr.ofRow more).Matches q r := by
  simp only [Expr.matching, Expr.matches_ofRow_append]
  constructor
  · rintro ⟨p, hp, r, hi, hj, q, hbefore, hmore⟩
    exact ⟨p, hp, q, r, hi, hj, hbefore, hmore⟩
  · rintro ⟨p, hp, q, r, hi, hj, hbefore, hmore⟩
    exact ⟨p, hp, r, hi, hj, q, hbefore, hmore⟩

theorem row_empty : language.Row "" (fun value i j => i = j ∧ j ≤ value.length) := by
  refine ⟨[], fun _ _ => rfl, fun value i j => ?_⟩
  constructor
  · rintro ⟨rfl, hle⟩
    obtain ⟨p, hp, hindex⟩ := Position.exists_mem_onward 0 none value.toList hle
    exact ⟨p, hp, p, by omega, by omega, rfl⟩
  · rintro ⟨p, hp, q, rfl, rfl, hsame⟩
    obtain rfl : q = p := hsame
    have hlength := (Position.of_mem hp).index_add_length
    exact ⟨rfl, by rw [← String.length_toList]; omega⟩

theorem row_caret {x : String} {m : Matching} (h : language.Row x m) :
    language.Row ("^" ++ x) (fun value i j => i = 0 ∧ m value i j) := by
  obtain ⟨es, hread, hm⟩ := h
  refine ⟨es ++ [.assertion .textStart], fun g outer => ?_, fun value i j => ?_⟩
  · rw [String.toList_append, List.append_assoc]
    exact hread (g.push (.assertion .textStart)) outer
  · dsimp only
    rw [hm, matching_ofRow_append]
    constructor
    · rintro ⟨rfl, p, hp, r, hi, hj, hmatch⟩
      have hof := Position.of_mem hp
      exact ⟨p, hp, p, r, hi, hj,
        Expr.matches_ofRow_singleton.mpr ⟨hof.before_isNone_iff.mpr hi, rfl⟩, hmatch⟩
    · rintro ⟨p, hp, q, r, rfl, hj, hstart, hmatch⟩
      obtain ⟨hstart, rfl⟩ := Expr.matches_ofRow_singleton.mp hstart
      have hof := Position.of_mem hp
      exact ⟨hof.before_isNone_iff.mp hstart, q, hp, r, rfl, hj, hmatch⟩

theorem row_dollar {x : String} {m : Matching} (h : language.Row x m) :
    language.Row (x ++ "$") (fun value i j => m value i j ∧ j = value.length) := by
  obtain ⟨es, hread, hm⟩ := h
  refine ⟨.assertion .textEnd :: es, fun g outer => ?_, fun value i j => ?_⟩
  · rw [String.toList_append, read_append (hread g outer)]
    rfl
  · have hend {p r : Position} (hp : p ∈ Position.onward 0 none value.toList)
        (hmatch : (Expr.ofRow es).Matches p r) :
        r.rest.isEmpty = true ↔ r.index = value.length := by
      have hof := ((Expr.ofRow es).follows value.toList).inText p r (Position.of_mem hp) hmatch
      rw [hof.rest_isEmpty_iff, String.length_toList]
    dsimp only
    rw [hm]
    constructor
    · rintro ⟨⟨p, hp, r, hi, rfl, hmatch⟩, hj⟩
      exact ⟨p, hp, r, hi, rfl, r, hmatch, (hend hp hmatch).mpr hj, rfl⟩
    · rintro ⟨p, hp, _, hi, rfl, r, hmatch, hlast, rfl⟩
      exact ⟨⟨p, hp, _, hi, rfl, hmatch⟩, (hend hp hmatch).mp hlast⟩

theorem row_group {x : String} {m : Matching} (h : language.Expression x m) :
    language.Row ("(?:" ++ x ++ ")") m := by
  obtain ⟨e, he, hm⟩ := h
  obtain ⟨inner, hread, rfl⟩ := parse_eq_some_iff.mp he
  refine ⟨[inner.expr], fun g outer => ?_, fun value i j => ?_⟩
  · have hinside := read_inside hread (g :: outer)
    have htext : ("(?:" ++ x ++ ")").toList = '(' :: '?' :: ':' :: (x.toList ++ [')']) := by simp
    rw [List.nil_append] at hinside
    rw [htext, read, read_append hinside]
    rfl
  · rw [hm]
    simp only [Expr.matching, Expr.matches_ofRow_singleton]

theorem expression_of_row {x : String} {m : Matching} (h : language.Row x m) :
    language.Expression x m := by
  obtain ⟨es, hread, hm⟩ := h
  refine ⟨.ofRow es, parse_eq_some_iff.mpr ⟨_, hread .start [], ?_⟩, hm⟩
  exact congrArg Expr.ofRow (List.append_nil es)

theorem expression_bar {x y : String} {m n : Matching} (hx : language.Row x m)
    (hy : language.Row y n) :
    language.Expression (x ++ "|" ++ y) (fun value i j => m value i j ∨ n value i j) := by
  obtain ⟨es, hreadx, hm⟩ := hx
  obtain ⟨fs, hready, hn⟩ := hy
  refine ⟨.alt (.ofRow fs) (.ofRow es), parse_eq_some_iff.mpr ⟨⟨[.ofRow es], fs⟩, ?_, rfl⟩, ?_⟩
  · have htext : (x ++ "|" ++ y).toList = x.toList ++ '|' :: y.toList := by simp
    rw [htext, read_append (hreadx .start []), read, hready]
    simp [Group.bar, Group.start]
  · intro value i j
    dsimp only
    rw [hm, hn]
    constructor
    · rintro (⟨p, hp, q, hi, hj, hmatch⟩ | ⟨p, hp, q, hi, hj, hmatch⟩)
      · exact ⟨p, hp, q, hi, hj, .inr hmatch⟩
      · exact ⟨p, hp, q, hi, hj, .inl hmatch⟩
    · rintro ⟨p, hp, q, hi, hj, hmatch | hmatch⟩
      · exact .inr ⟨p, hp, q, hi, hj, hmatch⟩
      · exact .inl ⟨p, hp, q, hi, hj, hmatch⟩

theorem compile_eq_ok_iff {text : String} {test : String → Bool} :
    library.compile text = .ok test ↔ ∃ e, parse text = some e ∧ e.occursIn = test := by
  unfold library
  dsimp only
  cases parse text with
  | none => simp
  | some e => simp

/-- The library keeps the laws of its language. -/
theorem speaks : library.Speaks language where
  compiles text := by
    simp only [compile_eq_ok_iff, valid_iff]
    constructor
    · rintro ⟨_, e, he, -⟩
      obtain ⟨g, hread, -⟩ := parse_eq_some_iff.mp he
      exact ⟨⟨g, hread⟩, trivial⟩
    · rintro ⟨⟨g, hread⟩, -⟩
      exact ⟨_, g.expr, parse_eq_some_iff.mpr ⟨g, hread, rfl⟩, rfl⟩
  finds {text test m} htest hm value := by
    obtain ⟨e, he, rfl⟩ := compile_eq_ok_iff.mp htest
    obtain ⟨e', he', hm⟩ := hm
    obtain rfl := Option.some.inj (he.symm.trans he')
    simp only [hm, Expr.occursIn_iff_matching]
  expression := expression_of_row
  empty := row_empty
  caret := row_caret
  dollar := row_dollar
  group h _ := row_group h
  bar hx hy _ := expression_bar hx hy
  closed {before m more} hbefore hvalid := by
    obtain ⟨es, hread, -⟩ := hbefore
    obtain ⟨g, hwhole⟩ := valid_iff.mp hvalid
    have htext : (before ++ "(?:" ++ more).toList =
        before.toList ++ '(' :: '?' :: ':' :: more.toList := by simp
    rw [htext, read_append (hread .start []), read] at hwhole
    obtain ⟨x, rest, inner, hmore, hx⟩ := exists_close [] hwhole
    refine ⟨String.ofList x, String.ofList rest, String.toList_inj.mp (by simp [hmore]), ?_, id⟩
    exact valid_iff.mpr ⟨inner, by rw [String.toList_ofList]; exact hx⟩
  unopened {x} rest hvalid _ hmore := by
    obtain ⟨g, hread⟩ := valid_iff.mp hvalid
    obtain ⟨g', hwhole⟩ := valid_iff.mp hmore
    have htext : (x ++ ")" ++ rest).toList = x.toList ++ ')' :: rest.toList := by simp
    rw [htext, read_append hread] at hwhole
    cases hwhole

end Letters

end CauseLists
