-- Tables: at most one value under each key, in the order in which the keys came in. The artefacts,
-- the current artefacts, the blobs and the locks are all kept in tables.

namespace CauseLists

/-- Rows of a key and its value. Of rows with one key the first counts. -/
abbrev Table (κ α : Type) := List (κ × α)

namespace Table

variable {κ α : Type} [DecidableEq κ]

/-- The value under a key. -/
def get? (key : κ) : Table κ α → Option α
  | [] => none
  | (k, a) :: rest => if k = key then some a else get? key rest

/-- Puts a value under a key, in place of the one that was there. -/
def put (key : κ) (value : α) : Table κ α → Table κ α
  | [] => [(key, value)]
  | (k, a) :: rest => if k = key then (key, value) :: rest else (k, a) :: put key value rest

/-- Takes a key out. -/
def erase (key : κ) : Table κ α → Table κ α
  | [] => []
  | (k, a) :: rest => if k = key then erase key rest else (k, a) :: erase key rest

/-- The values in order. -/
def values (t : Table κ α) : List α := t.map Prod.snd

/-- The keys in order. -/
def keys (t : Table κ α) : List κ := t.map Prod.fst

/-! ## What is under a key -/

@[simp] theorem get?_nil (key : κ) : get? key ([] : Table κ α) = none := rfl

@[simp] theorem get?_put_self (key : κ) (value : α) (t : Table κ α) :
    get? key (put key value t) = some value := by
  induction t with
  | nil => simp [put, get?]
  | cons row rest ih =>
    obtain ⟨k, a⟩ := row
    by_cases h : k = key <;> simp [put, get?, h, ih]

theorem get?_put_of_ne {key other : κ} (h : other ≠ key) (value : α) (t : Table κ α) :
    get? other (put key value t) = get? other t := by
  induction t with
  | nil => simp [put, get?, Ne.symm h]
  | cons row rest ih =>
    obtain ⟨k, a⟩ := row
    by_cases hk : k = key
    · subst hk
      simp [put, get?, Ne.symm h]
    · by_cases ho : k = other
      · subst ho
        simp [put, get?, hk]
      · simp [put, get?, hk, ho, ih]

@[simp] theorem get?_erase_self (key : κ) (t : Table κ α) : get? key (erase key t) = none := by
  induction t with
  | nil => rfl
  | cons row rest ih =>
    obtain ⟨k, a⟩ := row
    by_cases h : k = key <;> simp [erase, get?, h, ih]

theorem get?_erase_of_ne {key other : κ} (h : other ≠ key) (t : Table κ α) :
    get? other (erase key t) = get? other t := by
  induction t with
  | nil => rfl
  | cons row rest ih =>
    obtain ⟨k, a⟩ := row
    by_cases hk : k = key
    · subst hk
      simp [erase, get?, Ne.symm h, ih]
    · by_cases ho : k = other
      · subst ho
        simp [erase, get?, hk]
      · simp [erase, get?, hk, ho, ih]

end Table

end CauseLists
