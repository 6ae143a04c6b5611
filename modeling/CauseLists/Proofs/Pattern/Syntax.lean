-- What is known of a library of regular expressions: how its language treats groups, anchors, bars
-- and comments, and that a compiled expression finds the matches of its text. Nothing else is said
-- about the language, so whatever follows holds for all that an expression can be made of.
import CauseLists.Libraries

namespace CauseLists

/-- The matches of an expression: in a value, one can run from one place to another. A place is
told by the number of characters before it. -/
abbrev Matching := String → Nat → Nat → Prop

/-- The language of a library of regular expressions. -/
structure RegexSyntax where
  /-- A text is an expression, with these matches. -/
  Expression : String → Matching → Prop
  /-- A text is an expression that, outside of groups, has no bar and sets no flag. -/
  Row : String → Matching → Prop
  /-- A text ends within a comment, which would go on in what is written behind it. -/
  EndsInComment : String → Prop
  /-- An expression stays within the limits on nesting and on size. -/
  Fits : String → Prop

/-- A text is an expression by itself. -/
def RegexSyntax.Valid (s : RegexSyntax) (x : String) : Prop := ∃ m, s.Expression x m

/-- A library has a language. The laws say of groups without a name, of the two anchors and of bars
what they mean, and of parentheses that they come in pairs. -/
structure RegexLibrary.Speaks (l : RegexLibrary) (s : RegexSyntax) : Prop where
  compiles : ∀ x, (∃ test, l.compile x = .ok test) ↔ s.Valid x ∧ s.Fits x
  finds : ∀ {x test m}, l.compile x = .ok test → s.Expression x m →
    ∀ value, test value = true ↔ ∃ i j, m value i j
  expression : ∀ {x m}, s.Row x m → s.Expression x m
  empty : s.Row "" (fun value i j => i = j ∧ j ≤ value.length)
  caret : ∀ {x m}, s.Row x m → s.Row ("^" ++ x) (fun value i j => i = 0 ∧ m value i j)
  dollar : ∀ {x m}, s.Row x m → s.Row (x ++ "$") (fun value i j => m value i j ∧ j = value.length)
  /-- A group means what stands in it. -/
  group : ∀ {x m}, s.Expression x m → ¬s.EndsInComment x → s.Row ("(?:" ++ x ++ ")") m
  /-- A bar leaves a choice. Two rows can be at odds, as when they name a group alike. -/
  bar : ∀ {x y m n}, s.Row x m → s.Row y n → s.Valid (x ++ "|" ++ y) →
    s.Expression (x ++ "|" ++ y) (fun value i j => m value i j ∨ n value i j)
  /-- A group that is opened is closed again, and what stands in it is an expression. -/
  closed : ∀ {before m more}, s.Row before m → s.Valid (before ++ "(?:" ++ more) →
    ∃ x rest, more = x ++ ")" ++ rest ∧ s.Valid x ∧ ¬s.EndsInComment x
  /-- No group is closed that is not open. -/
  unopened : ∀ {x} rest, s.Valid x → ¬s.EndsInComment x → ¬s.Valid (x ++ ")" ++ rest)

end CauseLists
