-- What grants come to. A grant adds what it names to what an identity may publish, whether or not
-- the identity may publish everything by then, and takes nothing back. So a list of grants is told
-- by the set of its calls, and an identity by the set of its own.
import CauseLists.Authorization
import CauseLists.Proofs.ListType
import CauseLists.Proofs.Tables

namespace CauseLists

/-! ## One grant -/

theorem Grant.allows_adding (g : Grant) (added listType : ListType) :
    (g.adding added).allows listType = true ↔ g.allows listType = true ∨ listType = added := by
  cases g with
  | any => simp [adding, allows]
  | only listTypes =>
    by_cases hpresent : added ∈ listTypes
    · simp only [adding, allows, List.contains_iff_mem, hpresent, if_true]
      refine ⟨.inl, ?_⟩
      rintro (hmem | rfl)
      · exact hmem
      · exact hpresent
    · simp [adding, allows, hpresent]

/-- A call that adds to a list of grants. -/
inductive GrantCall
  | one (identity : String) (listType : ListType)
  | all (identity : String)
deriving DecidableEq, Repr

/-- The identity that a call is about. -/
def GrantCall.identity : GrantCall → String
  | .one identity _ => identity
  | .all identity => identity

namespace AllowList

variable {l : AllowList} {identity other : String} {listType added : ListType}

/-- The list after one more call. -/
def call (l : AllowList) : GrantCall → AllowList
  | .one identity listType => l.grant identity listType
  | .all identity => l.grantAll identity

/-- The list that a row of calls builds. -/
def ofCalls (calls : List GrantCall) : AllowList := calls.foldl call empty

theorem allows_grant : (l.grant other added).allows identity listType = true ↔
    l.allows identity listType = true ∨ identity = other ∧ listType = added := by
  unfold grant allows
  dsimp only
  rw [Table.get?_put]
  by_cases h : identity = other
  · subst h
    simp only [if_true, Grant.allows_adding, true_and]
    cases Table.get? identity l.grants with
    | none => simp [Grant.allows]
    | some grant => rfl
  · simp [h]

theorem allows_grantAll : (l.grantAll other).allows identity listType = true ↔
    l.allows identity listType = true ∨ identity = other := by
  unfold grantAll allows
  dsimp only
  rw [Table.get?_put]
  by_cases h : identity = other
  · simp [h, Grant.allows]
  · simp [h]

/-! ## Rows of calls -/

/-- What one more call allows: what was allowed before it, and what it names. -/
theorem allows_call (c : GrantCall) : (l.call c).allows identity listType = true ↔
    l.allows identity listType = true ∨ .all identity = c ∨ .one identity listType = c := by
  cases c with
  | one other added =>
    refine allows_grant.trans (or_congr_right ?_)
    simp
  | all other =>
    refine allows_grantAll.trans (or_congr_right ?_)
    simp

theorem allows_foldl (calls : List GrantCall) :
    (calls.foldl call l).allows identity listType = true ↔ l.allows identity listType = true ∨
      GrantCall.all identity ∈ calls ∨ GrantCall.one identity listType ∈ calls := by
  -- the list is kept general: the later calls start from what the first one makes of it
  induction calls generalizing l with
  | nil => simp
  | cons c calls ih =>
    rw [List.foldl_cons, ih, allows_call, List.mem_cons, List.mem_cons, or_assoc, or_or_or_comm]

theorem allows_ofCalls (calls : List GrantCall) :
    (ofCalls calls).allows identity listType = true ↔
      GrantCall.all identity ∈ calls ∨ GrantCall.one identity listType ∈ calls := by
  unfold ofCalls
  rw [allows_foldl]
  simp [allows, empty]

/-- A row that holds every call about an identity that another row holds allows it no less. -/
theorem allows_mono {calls calls' : List GrantCall}
    (h : ∀ c ∈ calls, c.identity = identity → c ∈ calls')
    (hallows : (ofCalls calls).allows identity listType = true) :
    (ofCalls calls').allows identity listType = true := by
  rw [allows_ofCalls] at hallows ⊢
  rcases hallows with hall | hone
  · exact .inl (h _ hall rfl)
  · exact .inr (h _ hone rfl)

/-- Rows that hold the same calls about an identity allow it the same. -/
theorem allows_congr {calls calls' : List GrantCall}
    (h : ∀ c : GrantCall, c.identity = identity → (c ∈ calls' ↔ c ∈ calls)) :
    (ofCalls calls').allows identity listType = (ofCalls calls).allows identity listType := by
  rw [Bool.eq_iff_iff]
  constructor
  · exact allows_mono (fun c hc hid => (h c hid).mp hc)
  · exact allows_mono (fun c hc hid => (h c hid).mpr hc)

/-- An identity may publish a list type exactly if one of the calls grants it that list type or all
of them. So it makes no difference in what order the calls come or how often, calls that come in
between withdraw nothing, and only the calls about an identity count for it. -/
theorem grants_add_up_in_any_order (calls : List GrantCall) (identity : String)
    (listType : ListType) :
    ((ofCalls calls).allows identity listType = true ↔
      GrantCall.all identity ∈ calls ∨ GrantCall.one identity listType ∈ calls) ∧
    (∀ calls', (∀ c, c ∈ calls' ↔ c ∈ calls) →
      (ofCalls calls').allows identity listType = (ofCalls calls).allows identity listType) ∧
    (∀ front more back, calls = front ++ back →
      (ofCalls calls).allows identity listType = true →
        (ofCalls (front ++ more ++ back)).allows identity listType = true) ∧
    (ofCalls (calls.filter (fun c => c.identity = identity))).allows identity listType =
      (ofCalls calls).allows identity listType := by
  refine ⟨allows_ofCalls calls, ?_, ?_, ?_⟩
  · intro calls' hsame
    exact allows_congr (fun c _ => hsame c)
  · rintro front more back rfl
    refine allows_mono (fun c hc _ => ?_)
    rcases List.mem_append.mp hc with hfront | hback
    · exact List.mem_append_left back (List.mem_append_left more hfront)
    · exact List.mem_append_right (front ++ more) hback
  · refine allows_congr (fun c hc => ?_)
    simp [List.mem_filter, hc]

/-! An editor who may publish everything is then granted one list type, and so is the press. -/

namespace Example

def daily : ListType := ⟨"DAILY_LIST", ListType.isCanonical_daily⟩

def weekly : ListType := ⟨"WEEKLY_LIST", ListType.isCanonical_weekly⟩

def calls : List GrantCall := [.all "editor", .one "editor" daily, .one "press" daily]

end Example

theorem a_later_grant_narrows_nothing :
    (ofCalls Example.calls).allows "editor" Example.weekly = true ∧
      (ofCalls Example.calls.reverse).allows "editor" Example.weekly = true ∧
      (ofCalls (.all "editor" :: Example.calls)).allows "press" Example.weekly = false := by
  obtain ⟨hexact, hsame, -, -⟩ := grants_add_up_in_any_order Example.calls "editor" Example.weekly
  have hallowed : (ofCalls Example.calls).allows "editor" Example.weekly = true :=
    hexact.mpr (by decide)
  refine ⟨hallowed, ?_, ?_⟩
  · rw [hsame _ (fun c => List.mem_reverse)]
    exact hallowed
  · rw [Bool.eq_false_iff]
    exact mt (grants_add_up_in_any_order _ "press" Example.weekly).1.mp (by decide)

end AllowList

end CauseLists
