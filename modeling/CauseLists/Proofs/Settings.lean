-- What settings can be. Settings that are read, from a text or with the environment in place of
-- parts of it, have no defect, and every number in them fits into the word that it is kept in.
import CauseLists.Proofs.Results
import CauseLists.Settings

namespace CauseLists

/-! ## Numbers in nodes -/

theorem Node.natural?_le {limit value : Nat} {n : Node} (h : n.natural? limit = some value) :
    value ≤ limit := by
  obtain ⟨i, hi, rfl⟩ := Option.map_eq_some_iff.mp h
  unfold integer? at hi
  split at hi
  · obtain ⟨hbounds, hvalue⟩ := Option.ite_none_right_eq_some.mp hi
    obtain rfl := Option.some.inj hvalue
    simp only [Bool.and_eq_true, decide_eq_true_eq] at hbounds
    omega
  · cases hi

theorem Node.fieldOr_natural?_le {fields : List (String × Node)} {name : String}
    {default limit value : Nat} (hdefault : default ≤ limit)
    (h : fieldOr fields name default (natural? limit) = some value) : value ≤ limit := by
  unfold fieldOr at h
  split at h
  · exact natural?_le h
  · obtain rfl := Option.some.inj h
    exact hdefault

namespace Settings

/-! ## Defects -/

theorem defect?_eq_none_iff {s : Settings} : s.defect? = none ↔
    s.maxAttempts ≠ 0 ∧ s.lockTimeout ≠ 0 ∧
      (0 ≤ s.defaultDays ∧ s.defaultDays ≤ maxDisplayDays) ∧ s.initialBackoff ≤ s.maxBackoff := by
  unfold defect?
  grind

theorem validated_eq_ok_iff {s t : Settings} : s.validated = .ok t ↔ s.defect? = none ∧ s = t := by
  unfold validated
  cases s.defect? <;> simp

/-! ## Words -/

/-- Settings that are kept in words: the number of attempts in one of 32 bits, and times in ones of
64 bits. -/
structure Fits (s : Settings) : Prop where
  lock : s.lockTimeout ≤ Text.maxWord64
  attempts : s.maxAttempts ≤ Text.maxWord32
  first : s.initialBackoff ≤ Text.maxWord64
  longest : s.maxBackoff ≤ Text.maxWord64

theorem fits_default : default.Fits := ⟨by decide, by decide, by decide, by decide⟩

theorem fits_of_ofNode? {n : Node} {s : Settings} (h : ofNode? n = some s) : s.Fits := by
  obtain ⟨fields, -, h⟩ := Option.bind_eq_some_iff.mp h
  obtain ⟨folder, -, h⟩ := Option.bind_eq_some_iff.mp h
  obtain ⟨sourceIds, -, h⟩ := Option.bind_eq_some_iff.mp h
  obtain ⟨days, -, h⟩ := Option.bind_eq_some_iff.mp h
  obtain ⟨lock, hlock, h⟩ := Option.bind_eq_some_iff.mp h
  obtain ⟨attempts, hattempts, h⟩ := Option.bind_eq_some_iff.mp h
  obtain ⟨first, hfirst, h⟩ := Option.bind_eq_some_iff.mp h
  obtain ⟨longest, hlongest, h⟩ := Option.bind_eq_some_iff.mp h
  obtain rfl := Option.some.inj h
  exact ⟨Node.fieldOr_natural?_le fits_default.lock hlock,
    Node.fieldOr_natural?_le fits_default.attempts hattempts,
    Node.fieldOr_natural?_le fits_default.first hfirst,
    Node.fieldOr_natural?_le fits_default.longest hlongest⟩

/-- Settings of a text are of use, and fit. -/
theorem fits_of_parse {l : Libraries} {text : String} {s : Settings} (h : parse l text = .ok s) :
    s.defect? = none ∧ s.Fits := by
  unfold parse at h
  split at h
  · obtain rfl := Except.ok.inj h
    exact ⟨by decide, fits_default⟩
  · split at h
    · rename_i read hread
      obtain ⟨hdefect, rfl⟩ := validated_eq_ok_iff.mp h
      obtain ⟨n, -, hn⟩ := Option.bind_eq_some_iff.mp hread
      exact ⟨hdefect, fits_of_ofNode? hn⟩
    · cases h

theorem number_le {environment : String → Option String} {name : String} {limit present value : Nat}
    (hpresent : present ≤ limit) (h : number environment name limit present = .ok value) :
    value ≤ limit := by
  unfold number at h
  split at h
  · obtain rfl := Except.ok.inj h
    exact hpresent
  · split at h
    · rename_i n hn
      obtain rfl := Except.ok.inj h
      exact of_decide_eq_true (Option.filter_eq_some_iff.mp hn).2
    · cases h

/-- The environment leaves settings of use, and they fit. -/
theorem fits_of_withEnvironment {s t : Settings} {environment : String → Option String}
    (hs : s.Fits) (h : s.withEnvironment environment = .ok t) : t.defect? = none ∧ t.Fits := by
  obtain ⟨lock, hlock, h⟩ := bind_eq_ok_iff.mp h
  obtain ⟨attempts, hattempts, h⟩ := bind_eq_ok_iff.mp h
  obtain ⟨hdefect, rfl⟩ := validated_eq_ok_iff.mp h
  exact ⟨hdefect, number_le hs.lock hlock, number_le hs.attempts hattempts, hs.first, hs.longest⟩

end Settings

end CauseLists
