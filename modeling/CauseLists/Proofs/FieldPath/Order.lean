-- The order of paths. Two paths are in the same place of the order only if they are the same path,
-- and the order is one: it can be turned round and followed from path to path.
import CauseLists.FieldPath.Basic
import Mathlib.Order.Compare

namespace CauseLists

namespace Segment

theorem order_eq_iff (a b : Segment) : a.order b = .eq ↔ a = b := by
  cases a <;> cases b <;> simp [Segment.order]

instance : Std.OrientedCmp Segment.order where
  eq_swap := by
    intro a b
    cases a <;> cases b <;> first | rfl | exact Std.OrientedOrd.eq_swap

/-- Keys, the step to every element and indices stand apart, so only steps of one kind are
compared by what they hold. -/
instance : Std.TransCmp Segment.order where
  isLE_trans := by
    intro a b c hab hbc
    cases a <;> cases b <;> cases c <;>
      first | exact Std.TransOrd.isLE_trans hab hbc | simp_all [order]

end Segment

namespace FieldPath

theorem order_eq_iff (p q : FieldPath) : p.order q = .eq ↔ p = q := by
  induction p generalizing q with
  | nil => cases q <;> simp [order]
  | cons a p ih =>
    cases q with
    | nil => simp [order]
    | cons b q => rw [order, Ordering.then_eq_eq, Segment.order_eq_iff, ih, List.cons.injEq]

/-- Paths are ordered as lists of their steps. -/
theorem order_eq_compareLex : order = List.compareLex Segment.order := by
  funext p q
  induction p generalizing q with
  | nil => cases q <;> rfl
  | cons a p ih =>
    cases q with
    | nil => rfl
    | cons b q => rw [order, ih, List.compareLex_cons_cons]

instance : Std.TransCmp order := order_eq_compareLex ▸ inferInstance

/-! ## Beginnings -/

theorem isStrictlyBelow_iff (p ancestor : FieldPath) :
    p.isStrictlyBelow ancestor = true ↔ ancestor <+: p ∧ ancestor.length < p.length := by
  rw [isStrictlyBelow, Bool.and_eq_true, decide_eq_true_eq, List.isPrefixOf_iff_prefix, and_comm]

end FieldPath

end CauseLists
