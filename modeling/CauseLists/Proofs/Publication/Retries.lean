-- How often something is tried that may meet a conflict, and how long one waits in between. Trying
-- ends with the first answer that is no conflict, or with the last attempt that is allowed. Waits
-- double up to a limit, and for settings of 64 bits the longest wait that can be told is never met.
import CauseLists.Proofs.Publication.Attempts
import CauseLists.Proofs.Settings

namespace CauseLists

namespace RetryPolicy

variable {α σ : Type}

/-! ## Calls and their answers -/

/-- What is there after so many calls. -/
def after (act : σ → Except CommitError α × σ) (s : σ) : Nat → σ
  | 0 => s
  | calls + 1 => after act (act s).2 calls

/-- The answer to a call by its number; the first call is number 1. -/
def answer (act : σ → Except CommitError α × σ) (s : σ) (call : Nat) : Except CommitError α :=
  (act (after act s (call - 1))).1

/-- An answer that asks for another attempt. -/
def IsConflict (result : Except CommitError α) : Prop :=
  ∃ subject contention, result = .error (.conflict subject contention)

/-- The first call that is answered by something else than a conflict. -/
structure FirstSettled (act : σ → Except CommitError α × σ) (s : σ) (call : Nat) : Prop where
  positive : 1 ≤ call
  settled : ¬ IsConflict (answer act s call)
  before : ∀ earlier, 1 ≤ earlier → earlier < call → IsConflict (answer act s earlier)

/-- The number of attempts that are allowed; there is always one. -/
def limit (p : RetryPolicy) : Nat := max 1 p.maxAttempts

/-- What trying comes to if a call is the last one: the answer to it, and a wait after each call
before it. -/
def ending (p : RetryPolicy) (act : σ → Except CommitError α × σ) (s : σ) (call : Nat) :
    Tried α × σ :=
  (⟨answer act s call, call, (List.range' 1 (call - 1)).map p.backoffAfter⟩, after act s call)

variable {p : RetryPolicy} {act : σ → Except CommitError α × σ} {s : σ}

theorem tryFrom_of_conflict (attempt left : Nat) (h : IsConflict (act s).1) :
    p.tryFrom act attempt (left + 1) s =
      ({ (p.tryFrom act (attempt + 1) left (act s).2).1 with
          waits := p.backoffAfter attempt ::
            (p.tryFrom act (attempt + 1) left (act s).2).1.waits },
        (p.tryFrom act (attempt + 1) left (act s).2).2) := by
  cases hact : act s with
  | mk result next =>
    rw [hact] at h
    obtain ⟨subject, contention, rfl⟩ := h
    rw [tryFrom, hact]

/-- The last attempt ends it, and so does an answer that is no conflict. -/
theorem tryFrom_of_last (attempt left : Nat) (h : ¬ IsConflict (act s).1 ∨ left = 0) :
    p.tryFrom act attempt left s = (⟨(act s).1, attempt, []⟩, (act s).2) := by
  unfold tryFrom
  split
  · rename_i subject contention s' hact
    rw [hact] at h ⊢
    obtain rfl := h.resolve_left (not_not_intro ⟨subject, contention, rfl⟩)
    rfl
  · rename_i hact
    rw [hact]

/-- After some conflicts, trying ends with the next call if it has to. -/
theorem tryFrom_eq (attempt : Nat) {left more : Nat} (hmore : more ≤ left)
    (hbefore : ∀ j < more, IsConflict (act (after act s j)).1)
    (hlast : ¬ IsConflict (act (after act s more)).1 ∨ more = left) :
    p.tryFrom act attempt left s =
      (⟨(act (after act s more)).1, attempt + more, (List.range' attempt more).map p.backoffAfter⟩,
        after act s (more + 1)) := by
  induction more generalizing s attempt left with
  | zero => exact tryFrom_of_last attempt left (hlast.imp_right Eq.symm)
  | succ more ih =>
    cases left with
    | zero => cases hmore
    | succ left =>
      have hfirst : IsConflict (act s).1 := hbefore 0 (Nat.zero_lt_succ more)
      have hrest : p.tryFrom act (attempt + 1) left (act s).2 = _ :=
        ih (attempt + 1) (Nat.le_of_succ_le_succ hmore)
          (fun j hj => hbefore (j + 1) (Nat.succ_lt_succ hj))
          (hlast.imp_right Nat.succ.inj)
      rw [tryFrom_of_conflict attempt left hfirst, hrest]
      simp only [Prod.mk.injEq, Tried.mk.injEq]
      refine ⟨⟨rfl, by omega, ?_⟩, rfl⟩
      rw [List.range'_succ, List.map_cons]

/-! ## Runs -/

/-- All calls up to one of them are answered by conflicts, if none of them is the first one that is
not. -/
theorem conflicts_of_not_settled {calls : Nat}
    (h : ¬ ∃ call, call ≤ calls ∧ FirstSettled act s call) :
    ∀ call, 1 ≤ call → call ≤ calls → IsConflict (answer act s call) := by
  intro call
  induction call using Nat.strong_induction_on with
  | _ call ih =>
    intro hpositive hcall
    by_contra hsettled
    refine h ⟨call, hcall, hpositive, hsettled, ?_⟩
    intro earlier hearlier hlt
    exact ih earlier hlt hearlier (by omega)

theorem run_of_last {call : Nat} (hpositive : 1 ≤ call) (hcall : call ≤ p.limit)
    (hbefore : ∀ earlier, 1 ≤ earlier → earlier < call → IsConflict (answer act s earlier))
    (hlast : ¬ IsConflict (answer act s call) ∨ call = p.limit) :
    p.run act s = p.ending act s call := by
  obtain ⟨more, rfl⟩ := Nat.exists_eq_add_of_le' hpositive
  unfold limit at hcall hlast
  have hmore : more ≤ p.maxAttempts - 1 := by omega
  have hrun : p.run act s = _ := tryFrom_eq 1 hmore
    (fun j hj => hbefore (j + 1) (by omega) (by omega)) (hlast.imp_right (by omega))
  rw [hrun, ending, Nat.add_comm]
  rfl

theorem run_of_settled {call : Nat} (hcall : call ≤ p.limit) (h : FirstSettled act s call) :
    p.run act s = p.ending act s call :=
  run_of_last h.positive hcall h.before (.inl h.settled)

theorem limit_pos (p : RetryPolicy) : 1 ≤ p.limit := Nat.le_max_left 1 p.maxAttempts

theorem run_of_exhausted (h : ¬ ∃ call, call ≤ p.limit ∧ FirstSettled act s call) :
    IsConflict (answer act s p.limit) ∧ p.run act s = p.ending act s p.limit := by
  have hconflicts := conflicts_of_not_settled h
  refine ⟨hconflicts _ p.limit_pos (Nat.le_refl _), ?_⟩
  exact run_of_last p.limit_pos (Nat.le_refl _)
    (fun earlier hpositive hlt => hconflicts earlier hpositive hlt.le) (.inr rfl)

/-- Trying ends with one of the calls that are allowed. -/
theorem exists_run_eq (p : RetryPolicy) (act : σ → Except CommitError α × σ) (s : σ) :
    ∃ call, 1 ≤ call ∧ call ≤ p.limit ∧ p.run act s = p.ending act s call := by
  by_cases h : ∃ call, call ≤ p.limit ∧ FirstSettled act s call
  · obtain ⟨call, hcall, hsettled⟩ := h
    exact ⟨call, hsettled.positive, hcall, run_of_settled hcall hsettled⟩
  · exact ⟨p.limit, p.limit_pos, Nat.le_refl _, (run_of_exhausted h).2⟩

/-- There is a wait after each attempt but the last. -/
theorem waits_run (p : RetryPolicy) (act : σ → Except CommitError α × σ) (s : σ) :
    (p.run act s).1.waits =
      (List.range' 1 ((p.run act s).1.attempts - 1)).map p.backoffAfter := by
  obtain ⟨call, -, -, hrun⟩ := p.exists_run_eq act s
  rw [hrun]
  rfl

/-- Something that counts how often it is done. -/
def counting (act : σ → Except CommitError α × σ) (x : σ × Nat) :
    Except CommitError α × (σ × Nat) :=
  ((act x.1).1, ((act x.1).2, x.2 + 1))

theorem tryFrom_counting (calls left : Nat) (s : σ) :
    p.tryFrom (counting act) (calls + 1) left (s, calls) =
      ((p.tryFrom act (calls + 1) left s).1,
        ((p.tryFrom act (calls + 1) left s).2, (p.tryFrom act (calls + 1) left s).1.attempts)) := by
  induction left generalizing calls s with
  | zero =>
    rw [tryFrom_of_last _ _ (.inr rfl), tryFrom_of_last _ _ (.inr rfl)]
    rfl
  | succ left ih =>
    by_cases h : IsConflict (act s).1
    · have hcounting : IsConflict (counting act (s, calls)).1 := h
      have hnext : (counting act (s, calls)).2 = ((act s).2, calls + 1) := rfl
      rw [tryFrom_of_conflict _ _ h, tryFrom_of_conflict _ _ hcounting, hnext, ih]
    · have hcounting : ¬ IsConflict (counting act (s, calls)).1 := h
      rw [tryFrom_of_last _ _ (.inl h), tryFrom_of_last _ _ (.inl hcounting)]
      rfl

/-- As many attempts are told as calls were made. -/
theorem run_counting (p : RetryPolicy) (act : σ → Except CommitError α × σ) (s : σ) :
    p.run (counting act) (s, 0) =
      ((p.run act s).1, ((p.run act s).2, (p.run act s).1.attempts)) :=
  tryFrom_counting 0 _ s

/-- How something is tried. The first answer that is no conflict is the result if it comes while
attempts are left; otherwise the result is the conflict that the last attempt met. There is one wait
between each two calls, and none before the first or after the last. -/
structure Tries (p : RetryPolicy) (act : σ → Except CommitError α × σ) (s : σ) : Prop where
  settled : ∀ call, call ≤ p.limit → FirstSettled act s call → p.run act s = p.ending act s call
  exhausted : (¬ ∃ call, call ≤ p.limit ∧ FirstSettled act s call) →
    IsConflict (answer act s p.limit) ∧ p.run act s = p.ending act s p.limit
  counted : p.run (counting act) (s, 0) =
    ((p.run act s).1, ((p.run act s).2, (p.run act s).1.attempts))
  waits : (p.run act s).1.waits =
    (List.range' 1 ((p.run act s).1.attempts - 1)).map p.backoffAfter
  /-- The number of attempts fits into 32 bits if the number of those allowed does. -/
  bounded : (p.run act s).1.attempts ≤ p.limit ∧
    (p.maxAttempts ≤ Text.maxWord32 → (p.run act s).1.attempts ≤ Text.maxWord32)

theorem tries (p : RetryPolicy) (act : σ → Except CommitError α × σ) (s : σ) : p.Tries act s := by
  obtain ⟨call, -, hcall, hrun⟩ := p.exists_run_eq act s
  constructor
  · intro call
    exact run_of_settled
  · exact run_of_exhausted
  · exact p.run_counting act s
  · exact p.waits_run act s
  · rw [hrun]
    refine ⟨hcall, fun hwords => hcall.trans ?_⟩
    exact Nat.max_le.mpr ⟨by decide, hwords⟩

/-! ## Waits -/

theorem backoffAfter_le (p : RetryPolicy) (attempt : Nat) : p.backoffAfter attempt ≤ p.maxBackoff :=
  Nat.min_le_right _ _

theorem backoffAfter_mono (p : RetryPolicy) {earlier later : Nat} (h : earlier ≤ later) :
    p.backoffAfter earlier ≤ p.backoffAfter later := by
  have hdoublings : min (earlier - 1) maxDoublings ≤ min (later - 1) maxDoublings := by omega
  have hpower : Nat.pow 2 (min (earlier - 1) maxDoublings) ≤
      Nat.pow 2 (min (later - 1) maxDoublings) := Nat.pow_le_pow_right (by decide) hdoublings
  have hproduct := Nat.mul_le_mul_left p.initialBackoff hpower
  unfold backoffAfter stretch
  omega

/-- The longest wait that can be told does not show if no wait is as long as that. -/
theorem backoffAfter_eq {p : RetryPolicy} (h : p.maxBackoff ≤ longestWait) (attempt : Nat) :
    p.backoffAfter attempt =
      min (p.initialBackoff * Nat.pow 2 (min (attempt - 1) 16)) p.maxBackoff := by
  unfold backoffAfter stretch
  rw [min_assoc, min_eq_right h]
  rfl

example : [1, 2, 3, 4, 40].map (backoffAfter ⟨10, 10, 50⟩) = [10, 20, 40, 50, 50] := by decide

end RetryPolicy

/-! ## Publishing -/

namespace Service

variable {ε : Type}

/-- One attempt to commit a submission that was vetted. -/
def committing (s : Service ε) (envelope : Envelope) (body : Bytes) (now : Instant)
    (a : Archive ε) : Except CommitError Committed × Archive ε :=
  s.engine.commit a envelope body now

/-- How a submission that was vetted is published. The first commit that meets no conflict decides,
and how many commits there were is told; if all those allowed meet conflicts, it is given up. -/
structure Publishes (s : Service ε) (a : Archive ε) (envelope : Envelope) (body : Bytes)
    (now : Instant) : Prop where
  settled : ∀ call, call ≤ s.retry.limit →
    RetryPolicy.FirstSettled (s.committing envelope body now) a call →
      s.publish a envelope body now =
        (outcome call (RetryPolicy.answer (s.committing envelope body now) a call),
          RetryPolicy.after (s.committing envelope body now) a call)
  exhausted : (¬ ∃ call, call ≤ s.retry.limit ∧
      RetryPolicy.FirstSettled (s.committing envelope body now) a call) →
    ∃ subject contention,
      RetryPolicy.answer (s.committing envelope body now) a s.retry.limit =
        .error (.conflict subject contention) ∧
      s.publish a envelope body now = (.error (.conflict subject s.retry.limit),
        RetryPolicy.after (s.committing envelope body now) a s.retry.limit)

theorem publishes (s : Service ε) (a : Archive ε) (envelope : Envelope) (body : Bytes)
    (now : Instant) : s.Publishes a envelope body now := by
  constructor
  · intro call hcall hsettled
    exact s.publish_eq a envelope body now (RetryPolicy.run_of_settled hcall hsettled)
  · intro h
    obtain ⟨⟨subject, contention, hconflict⟩, hrun⟩ := RetryPolicy.run_of_exhausted h
    refine ⟨subject, contention, hconflict, (s.publish_eq a envelope body now hrun).trans ?_⟩
    rw [hconflict]
    rfl

end Service

/-! ## Settings -/

namespace Settings

/-- The waits that settings make. They double sixteen times at most and up to a limit, and this is
what one really waits; settings without a defect begin with the wait that they say. -/
structure Paces (s : Settings) : Prop where
  exact : ∀ attempt, s.retryPolicy.backoffAfter attempt =
    min (s.initialBackoff * Nat.pow 2 (min (attempt - 1) 16)) s.maxBackoff
  waited : ∀ {α σ : Type} (act : σ → Except CommitError α × σ) (start : σ),
    (s.retryPolicy.run act start).1.waits =
      (List.range' 1 ((s.retryPolicy.run act start).1.attempts - 1)).map (fun attempt =>
        min (s.initialBackoff * Nat.pow 2 (min (attempt - 1) 16)) s.maxBackoff)
  increasing : ∀ earlier later, earlier ≤ later →
    s.retryPolicy.backoffAfter earlier ≤ s.retryPolicy.backoffAfter later
  bounded : ∀ attempt, s.retryPolicy.backoffAfter attempt ≤ s.maxBackoff
  accepted : s.defect? = none →
    s.retryPolicy.limit = s.maxAttempts ∧ s.retryPolicy.backoffAfter 1 = s.initialBackoff

theorem maxWord64_le_longestWait : Text.maxWord64 ≤ longestWait := by decide

theorem Fits.backoffAfter_eq {s : Settings} (h : s.Fits) (attempt : Nat) :
    s.retryPolicy.backoffAfter attempt =
      min (s.initialBackoff * Nat.pow 2 (min (attempt - 1) 16)) s.maxBackoff :=
  RetryPolicy.backoffAfter_eq (p := s.retryPolicy) (h.longest.trans maxWord64_le_longestWait)
    attempt

theorem Fits.paces {s : Settings} (h : s.Fits) : s.Paces where
  exact := h.backoffAfter_eq
  waited act start := by
    rw [s.retryPolicy.waits_run act start]
    exact List.map_congr_left (fun attempt _ => h.backoffAfter_eq attempt)
  increasing _ _ := s.retryPolicy.backoffAfter_mono
  bounded := s.retryPolicy.backoffAfter_le
  accepted := by
    intro hsound
    obtain ⟨hattempts, -, -, hfirst⟩ := defect?_eq_none_iff.mp hsound
    refine ⟨Nat.max_eq_right (Nat.one_le_iff_ne_zero.mpr hattempts), ?_⟩
    rw [h.backoffAfter_eq]
    simp [Nat.min_eq_left hfirst]

/-- Settings of a text make such waits, and begin with the wait that they say. -/
theorem paces_of_parse {l : Libraries} {text : String} {s : Settings} (h : parse l text = .ok s) :
    s.defect? = none ∧ s.Paces :=
  (fits_of_parse h).imp_right Fits.paces

theorem paces_of_withEnvironment {s t : Settings} {environment : String → Option String}
    (hs : s.Fits) (h : s.withEnvironment environment = .ok t) : t.defect? = none ∧ t.Paces :=
  (fits_of_withEnvironment hs h).imp_right Fits.paces

end Settings

/-! ## Attempts and waits -/

namespace RetryPolicy

/-- Attempts and waits are as they should be, whatever is tried: by settings that fit into their
words, by those of any text, and by those that the environment leaves. -/
theorem conflicts_are_tried_again_within_limits {α σ : Type} (p : RetryPolicy)
    (act : σ → Except CommitError α × σ) (start : σ) {settings : Settings}
    (hfits : settings.Fits) :
    p.Tries act start ∧ settings.Paces ∧
      (∀ l text read, Settings.parse l text = .ok read → read.defect? = none ∧ read.Paces) ∧
      (∀ environment left, settings.withEnvironment environment = .ok left →
        left.defect? = none ∧ left.Paces) ∧
      ∀ {ε : Type} (service : Service ε) (a : Archive ε) (envelope : Envelope) (body : Bytes)
        (now : Instant), service.Publishes a envelope body now := by
  refine ⟨p.tries act start, hfits.paces, ?_, ?_, ?_⟩
  · intro l text read
    exact Settings.paces_of_parse
  · intro environment left
    exact Settings.paces_of_withEnvironment hfits
  · intro ε service
    exact service.publishes

namespace Example

/-- A call that meets conflicts until it is made for the third time. -/
def third (calls : Nat) : Except CommitError String × Nat :=
  (if calls < 2 then .error (.conflict "key" .currentChanged) else .ok "kept", calls + 1)

theorem third_settles : FirstSettled third 0 3 where
  positive := by decide
  settled := by
    rintro ⟨subject, contention, h⟩
    cases h
  before := by
    intro earlier hpositive hlt
    have hcases : earlier = 1 ∨ earlier = 2 := by omega
    rcases hcases with rfl | rfl
    · exact ⟨"key", .currentChanged, rfl⟩
    · exact ⟨"key", .currentChanged, rfl⟩

end Example

/-- Where nothing is set, two conflicts cost waits of ten and twenty milliseconds. -/
theorem the_third_attempt_succeeds : Settings.default.Fits ∧
    Settings.default.retryPolicy.run Example.third 0 =
      (⟨.ok "kept", 3, [10, 20]⟩, 3) := by
  obtain ⟨htries, -, -⟩ := conflicts_are_tried_again_within_limits Settings.default.retryPolicy
    Example.third 0 Settings.fits_default
  exact ⟨Settings.fits_default, htries.settled 3 (by decide) Example.third_settles⟩

end RetryPolicy

end CauseLists
