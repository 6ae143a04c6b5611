-- What comes of trying again. However many attempts there were, the result is that of the last one,
-- and all that happened before it is that attempts met conflicts. The services of the theory keep
-- their bodies in memory, in a store that may refuse any of them.
import CauseLists.Proofs.ListType
import CauseLists.Proofs.Supersession.Commits
import CauseLists.Publication.Service
import Mathlib.Logic.Relation

namespace CauseLists

open Relation (ReflTransGen)

namespace RetryPolicy

variable {α σ : Type}

/-- One attempt that meets a conflict. -/
def Conflicts (act : σ → Except CommitError α × σ) (s s' : σ) : Prop :=
  ∃ subject contention, act s = (.error (.conflict subject contention), s')

/-- The result of some attempts is that of the last one. -/
theorem tryFrom_last (p : RetryPolicy) (act : σ → Except CommitError α × σ) (attempt left : Nat)
    (s : σ) : ∃ last, ReflTransGen (Conflicts act) s last ∧
      act last = ((p.tryFrom act attempt left s).1.result, (p.tryFrom act attempt left s).2) := by
  induction left generalizing attempt s with
  | zero =>
    refine ⟨s, .refl, ?_⟩
    unfold tryFrom
    split <;> assumption
  | succ left ih =>
    unfold tryFrom
    split
    · rename_i subject contention s' hact
      obtain ⟨last, hbefore, hlast⟩ := ih (attempt + 1) s'
      exact ⟨last, .head ⟨subject, contention, hact⟩ hbefore, hlast⟩
    · rename_i hact
      exact ⟨s, .refl, hact⟩

theorem run_last (p : RetryPolicy) (act : σ → Except CommitError α × σ) (s : σ) :
    ∃ last, ReflTransGen (Conflicts act) s last ∧
      act last = ((p.run act s).1.result, (p.run act s).2) :=
  p.tryFrom_last act 1 (p.maxAttempts - 1) s

end RetryPolicy

namespace Service

variable {ε : Type}

/-- What the last commit of a publication made of it. -/
def outcome (attempts : Nat) : Except CommitError Committed → Except PublicationError Published
  | .ok c => .ok ⟨c.artefact, c.decision, attempts⟩
  | .error e => .error (.ofCommit attempts e)

/-- A publication is what trying to commit comes to. -/
theorem publish_eq (s : Service ε) (a : Archive ε) (envelope : Envelope) (body : Bytes)
    (now : Instant) {tried : Tried Committed} {a' : Archive ε}
    (h : s.retry.run (fun a => s.engine.commit a envelope body now) a = (tried, a')) :
    s.publish a envelope body now = (outcome tried.attempts tried.result, a') := by
  unfold publish
  rw [h]
  dsimp only
  split <;> rename_i hresult <;> rw [hresult] <;> rfl

/-- A publication is one last commit, after others that met conflicts. -/
theorem publish_last (s : Service ε) (a : Archive ε) (envelope : Envelope) (body : Bytes)
    (now : Instant) : ∃ last attempts r a',
      ReflTransGen (RetryPolicy.Conflicts (fun a => s.engine.commit a envelope body now)) a last ∧
      s.engine.commit last envelope body now = (r, a') ∧
      s.publish a envelope body now = (outcome attempts r, a') := by
  obtain ⟨last, hbefore, hlast⟩ :=
    s.retry.run_last (fun a => s.engine.commit a envelope body now) a
  exact ⟨last, _, _, _, hbefore, hlast, s.publish_eq a envelope body now rfl⟩

end Service

/-! ## Services over stores in memory -/

/-- What a service over stores in memory is made of. Its payload store may refuse bodies. -/
structure Setup (ε : Type) where
  registry : Registry
  settings : Settings
  authorizer : Authorizer
  refuses : ε → Envelope → Bytes → Option StorageError

namespace Setup

def service {ε : Type} (c : Setup ε) : Service ε :=
  .ofSettings c.registry c.settings c.authorizer (.refusing c.refuses)

/-! A registry with one list type, and an envelope for it that is displayed for a second. -/

namespace Example

def registry : Registry :=
  ⟨[⟨⟨"DAILY_LIST", ListType.isCanonical_daily⟩, [], [⟨[], .required⟩], [], none⟩]⟩

def submitted : SubmittedEnvelope where
  provenance := some "COMMON_PLATFORM"
  sourceId := some "id1"
  artefactType := some "LIST"
  sensitivity := some "PUBLIC"
  language := some "ENGLISH"
  displayFrom := some .epoch
  displayTo := some .epoch
  listType := some "DAILY_LIST"
  location := some "123"
  contentDate := some .epoch

/-- A second after the display of the envelope has ended. -/
def later : Instant := (Instant.ofSeconds? 1).getD .epoch

end Example

end Setup

end CauseLists
