-- The order of instants, told in seconds.
import CauseLists.Calendar.Instant

namespace CauseLists.Instant

theorem le_refl (a : Instant) : a ≤ a := Int.le_refl a.seconds

theorem le_of_not_lt {a b : Instant} (h : ¬ a < b) : b ≤ a := Int.not_lt.mp h

theorem not_lt_of_le {a b : Instant} (h : a ≤ b) : ¬ b < a := Int.not_lt.mpr h

theorem seconds_earlier (a b : Instant) : (a.earlier b).seconds = min a.seconds b.seconds := by
  unfold earlier
  split
  · rename_i h
    exact (Int.min_eq_left h).symm
  · rename_i h
    exact (Int.min_eq_right (Int.le_of_lt (Int.not_le.mp h))).symm

theorem seconds_later (a b : Instant) : (a.later b).seconds = max a.seconds b.seconds := by
  unfold later
  split
  · rename_i h
    exact (Int.max_eq_right h).symm
  · rename_i h
    exact (Int.max_eq_left (Int.le_of_lt (Int.not_le.mp h))).symm

end CauseLists.Instant
