-- What tables keep. Putting a value under a key changes that key alone, and a table in which every
-- key came in once holds every key once.
import CauseLists.Table

namespace CauseLists.Table

variable {κ α : Type} [DecidableEq κ]

theorem get?_put (key other : κ) (value : α) (t : Table κ α) :
    get? other (put key value t) = if other = key then some value else get? other t := by
  by_cases h : other = key
  · subst h
    simp
  · simp [get?_put_of_ne h, h]

theorem get?_erase (key other : κ) (t : Table κ α) :
    get? other (erase key t) = if other = key then none else get? other t := by
  by_cases h : other = key
  · subst h
    simp
  · simp [get?_erase_of_ne h, h]

theorem get?_eq_none_iff (key : κ) (t : Table κ α) : get? key t = none ↔ key ∉ keys t := by
  induction t with
  | nil => simp [keys]
  | cons row rest ih =>
    obtain ⟨k, a⟩ := row
    by_cases h : k = key
    · simp [get?, keys, h]
    · simp only [get?, h, if_false, ih, keys, List.map_cons, List.mem_cons, not_or]
      exact ⟨fun hr => ⟨Ne.symm h, hr⟩, fun hr => hr.2⟩

theorem mem_values_of_get? {key : κ} {value : α} {t : Table κ α} (h : get? key t = some value) :
    value ∈ values t := by
  induction t with
  | nil => simp at h
  | cons row rest ih =>
    obtain ⟨k, a⟩ := row
    by_cases hk : k = key
    · simp only [get?, hk, if_true, Option.some.injEq] at h
      simp [values, h]
    · simp only [get?, hk, if_false] at h
      exact List.mem_cons_of_mem _ (ih h)

/-! ## A new key -/

theorem put_of_get?_none {key : κ} {t : Table κ α} (value : α) (h : get? key t = none) :
    put key value t = t ++ [(key, value)] := by
  induction t with
  | nil => rfl
  | cons row rest ih =>
    obtain ⟨k, a⟩ := row
    by_cases hk : k = key
    · simp [get?, hk] at h
    · simp only [get?, hk, if_false] at h
      simp [put, hk, ih h]

theorem nodup_keys_put_of_get?_none {key : κ} {t : Table κ α} (value : α)
    (hn : (keys t).Nodup) (h : get? key t = none) : (keys (put key value t)).Nodup := by
  rw [put_of_get?_none value h]
  simp only [keys, List.map_append, List.map_cons, List.map_nil]
  rw [List.nodup_append]
  have habsent : key ∉ t.map Prod.fst := (get?_eq_none_iff key t).mp h
  refine ⟨hn, by simp, fun k hk other hother hsame => habsent ?_⟩
  rwa [← List.mem_singleton.mp hother, ← hsame]

/-! ## A key that is there -/

theorem keys_put_of_get?_some {key : κ} {old : α} {t : Table κ α} (value : α)
    (h : get? key t = some old) : keys (put key value t) = keys t := by
  induction t with
  | nil => simp at h
  | cons row rest ih =>
    obtain ⟨k, a⟩ := row
    by_cases hk : k = key
    · simp [put, keys, hk]
    · simp only [get?, hk, if_false] at h
      simp only [put, hk, if_false, keys, List.map_cons]
      exact congrArg (List.cons k) (ih h)

/-- The value that was put last counts. -/
@[simp] theorem put_put (key : κ) (value other : α) (t : Table κ α) :
    put key value (put key other t) = put key value t := by
  induction t with
  | nil => simp [put]
  | cons row rest ih =>
    obtain ⟨k, a⟩ := row
    by_cases hk : k = key <;> simp [put, hk, ih]

theorem put_get?_some {key : κ} {value : α} {t : Table κ α} (h : get? key t = some value) :
    put key value t = t := by
  induction t with
  | nil => simp at h
  | cons row rest ih =>
    obtain ⟨k, a⟩ := row
    by_cases hk : k = key
    · simp only [get?, hk, if_true, Option.some.injEq] at h
      simp [put, hk, h]
    · simp only [get?, hk, if_false] at h
      simp [put, hk, ih h]

/-- Putting back the value that was under a key undoes a change to it. -/
theorem put_put_of_get?_some {key : κ} {value : α} {t : Table κ α} (other : α)
    (h : get? key t = some value) : put key value (put key other t) = t := by
  rw [put_put, put_get?_some h]

theorem map_values_put {β : Type} (f : α → β) {key : κ} {old value : α} {t : Table κ α}
    (h : get? key t = some old) (hf : f value = f old) :
    (values (put key value t)).map f = (values t).map f := by
  induction t with
  | nil => simp at h
  | cons row rest ih =>
    obtain ⟨k, a⟩ := row
    by_cases hk : k = key
    · simp only [get?, hk, if_true, Option.some.injEq] at h
      simp [put, values, hk, hf, h]
    · simp only [get?, hk, if_false] at h
      simp only [put, hk, if_false, values, List.map_cons]
      exact congrArg (List.cons (f a)) (ih h)

theorem nodup_keys_put {key : κ} {t : Table κ α} (value : α) (hn : (keys t).Nodup) :
    (keys (put key value t)).Nodup := by
  cases h : get? key t with
  | none => exact nodup_keys_put_of_get?_none value hn h
  | some old =>
    rw [keys_put_of_get?_some value h]
    exact hn

/-- In a table that holds every key once, every row is the one that a lookup finds. -/
theorem mem_iff_get? {t : Table κ α} (hn : (keys t).Nodup) (key : κ) (value : α) :
    (key, value) ∈ t ↔ get? key t = some value := by
  induction t with
  | nil => simp
  | cons row rest ih =>
    obtain ⟨k, a⟩ := row
    obtain ⟨hout, hrest⟩ := List.nodup_cons.mp hn
    change k ∉ rest.map Prod.fst at hout
    rw [List.mem_cons, ih hrest]
    by_cases hk : k = key
    · subst hk
      have hnone : get? k rest = none := (get?_eq_none_iff k rest).mpr hout
      simp [get?, hnone, eq_comm]
    · simp [get?, hk, Ne.symm hk]

/-! ## Keys that go -/

theorem nodup_keys_erase (key : κ) {t : Table κ α} (hn : (keys t).Nodup) :
    (keys (erase key t)).Nodup := by
  have hsub : (erase key t).Sublist t := by
    clear hn
    induction t with
    | nil => exact .slnil
    | cons row rest ih =>
      obtain ⟨k, a⟩ := row
      by_cases hk : k = key
      · simp only [erase, hk, if_true]
        exact ih.cons _
      · simp only [erase, hk, if_false]
        exact ih.cons_cons _
  exact hn.sublist (hsub.map Prod.fst)

theorem erase_of_get?_none {key : κ} {t : Table κ α} (h : get? key t = none) :
    erase key t = t := by
  induction t with
  | nil => rfl
  | cons row rest ih =>
    obtain ⟨k, a⟩ := row
    by_cases hk : k = key
    · simp [get?, hk] at h
    · simp only [get?, hk, if_false] at h
      simp [erase, hk, ih h]

/-- A key that is taken out leaves nothing of what was put under it. -/
@[simp] theorem erase_put (key : κ) (value : α) (t : Table κ α) :
    erase key (put key value t) = erase key t := by
  induction t with
  | nil => simp [put, erase]
  | cons row rest ih =>
    obtain ⟨k, a⟩ := row
    by_cases hk : k = key <;> simp [put, erase, hk, ih]

/-! ## Changes in place -/

/-- Changes the value under a key, if there is one. -/
def modify (key : κ) (f : α → α) : Table κ α → Table κ α
  | [] => []
  | (k, a) :: rest => if k = key then (k, f a) :: rest else (k, a) :: modify key f rest

theorem get?_modify (key other : κ) (f : α → α) (t : Table κ α) :
    get? other (modify key f t) = if other = key then (get? key t).map f else get? other t := by
  induction t with
  | nil => simp [modify]
  | cons row rest ih =>
    obtain ⟨k, a⟩ := row
    by_cases hk : k = key
    · subst hk
      by_cases ho : k = other
      · simp [modify, get?, ho]
      · simp [modify, get?, ho, Ne.symm ho]
    · by_cases ho : k = other
      · subst ho
        simp [modify, get?, hk]
      · simp [modify, get?, hk, ho, ih]

/-- Putting a changed value back is changing it in place. -/
theorem put_of_get?_some {key : κ} {value : α} {t : Table κ α} (f : α → α)
    (h : get? key t = some value) : put key (f value) t = modify key f t := by
  induction t with
  | nil => simp at h
  | cons row rest ih =>
    obtain ⟨k, a⟩ := row
    by_cases hk : k = key
    · simp only [get?, hk, if_true, Option.some.injEq] at h
      simp [put, modify, hk, h]
    · simp only [get?, hk, if_false] at h
      simp [put, modify, hk, ih h]

/-! ## Changes to different keys -/

theorem modify_put_of_ne {key other : κ} (h : key ≠ other) (f : α → α) (value : α)
    (t : Table κ α) : modify key f (put other value t) = put other value (modify key f t) := by
  induction t with
  | nil => simp [put, modify, Ne.symm h]
  | cons row rest ih =>
    obtain ⟨k, a⟩ := row
    by_cases hk : k = key
    · subst hk
      simp [put, modify, h]
    · by_cases ho : k = other <;> simp [put, modify, hk, ho, Ne.symm h, ih]

theorem modify_modify_of_ne {key other : κ} (h : key ≠ other) (f g : α → α) (t : Table κ α) :
    modify key f (modify other g t) = modify other g (modify key f t) := by
  induction t with
  | nil => rfl
  | cons row rest ih =>
    obtain ⟨k, a⟩ := row
    by_cases hk : k = key
    · subst hk
      simp [modify, h]
    · by_cases ho : k = other <;> simp [modify, hk, ho, Ne.symm h, ih]

theorem erase_put_of_ne {key other : κ} (h : key ≠ other) (value : α) (t : Table κ α) :
    erase key (put other value t) = put other value (erase key t) := by
  induction t with
  | nil => simp [put, erase, Ne.symm h]
  | cons row rest ih =>
    obtain ⟨k, a⟩ := row
    by_cases hk : k = key
    · subst hk
      simp [put, erase, h, ih]
    · by_cases ho : k = other <;> simp [put, erase, hk, ho, Ne.symm h, ih]

theorem erase_erase_comm (key other : κ) (t : Table κ α) :
    erase key (erase other t) = erase other (erase key t) := by
  induction t with
  | nil => rfl
  | cons row rest ih =>
    obtain ⟨k, a⟩ := row
    by_cases hk : k = key <;> by_cases ho : k = other <;> simp_all [erase]

end CauseLists.Table
