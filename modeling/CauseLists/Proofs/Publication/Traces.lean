-- What a submission that fails leaves behind. The payload store is as it was, and so is the ledger,
-- with one exception: room is made for the new artefact before its body is kept. If the body is
-- refused then, the artefact whose display window had ended stays expired.
import CauseLists.Proofs.Publication.Attempts
import CauseLists.Proofs.Publication.Vetting
import CauseLists.Proofs.Supersession.Sweeps

namespace CauseLists

open Relation (ReflTransGen)

variable {ε : Type} {refuses : ε → Envelope → Bytes → Option StorageError}

/-! ## Conflicts -/

/-- In a sound archive attempts that meet conflicts change the locks and nothing else. -/
theorem conflicts_sound {timeout : Nat} {envelope : Envelope} {body : Bytes} {now : Instant}
    {a last : Archive ε} (ha : a.Sound)
    (h : ReflTransGen (RetryPolicy.Conflicts (fun a =>
      Engine.commit ⟨.refusing refuses, timeout⟩ a envelope body now)) a last) :
    ∃ locks, last = { a with locks } := by
  induction h with
  | refl => exact ⟨a.locks, rfl⟩
  | tail _ hstep ih =>
    obtain ⟨locks, rfl⟩ := ih
    obtain ⟨subject, contention, hact⟩ := hstep
    rcases (commits_of_eq hact).error_cases (ha.aside locks a.notes) with
      ⟨-, locks', rfl⟩ | ⟨reason, _, _, _, _, herr, -⟩
    · exact ⟨locks', rfl⟩
    · cases herr

theorem conflicts_ids {timeout : Nat} {envelope : Envelope} {body : Bytes} {now : Instant}
    {a last : Archive ε}
    (h : ReflTransGen (RetryPolicy.Conflicts (fun a =>
      Engine.commit ⟨.refusing refuses, timeout⟩ a envelope body now)) a last) :
    a.ids.Continues last.ids := by
  induction h with
  | refl => exact .refl a.ids
  | tail _ hstep ih =>
    obtain ⟨subject, contention, hact⟩ := hstep
    exact ih.trans (commits_of_eq hact).ids

namespace Service

/-! ## Reached archives -/

/-- The states that the archive of a service can be in. Between the calls to the service and its
engine others may take or give back locks, and the stores may note down what they like. -/
inductive Reached (s : Service ε) : Archive ε → Prop
  | start (draw : Nat → ArtefactId) (notes : ε) : Reached s (.start .empty draw notes)
  | submission {a : Archive ε} (identity : String) (body : Bytes) (e : SubmittedEnvelope)
    (strict : Bool) (now : Instant) (h : Reached s a) :
    Reached s (s.ingest a identity body e strict now).2
  | commit {a : Archive ε} (envelope : Envelope) (body : Bytes) (now : Instant)
    (h : Reached s a) : Reached s (s.engine.commit a envelope body now).2
  | sweep {a : Archive ε} (now : Instant) (h : Reached s a) : Reached s (Engine.expireDue a now).2
  | meanwhile {a : Archive ε} (locks : KeyLocks IdentityKey) (notes : ε) (h : Reached s a) :
    Reached s { a with locks, notes }

section

variable {c : Setup ε}

theorem publish_ids (a : Archive ε) (envelope : Envelope) (body : Bytes) (now : Instant) :
    a.ids.Continues (c.service.publish a envelope body now).2.ids := by
  obtain ⟨last, attempts, r, a', hbefore, hlast, hpublish⟩ :=
    c.service.publish_last a envelope body now
  rw [hpublish]
  exact (conflicts_ids hbefore).trans (commits_of_eq hlast).ids

theorem publish_sound {a : Archive ε} (ha : a.Sound) {envelope : Envelope} {body : Bytes}
    {now : Instant} (hids : (c.service.publish a envelope body now).2.ids.Distinct) :
    (c.service.publish a envelope body now).2.Sound := by
  obtain ⟨last, attempts, r, a', hbefore, hlast, hpublish⟩ :=
    c.service.publish_last a envelope body now
  obtain ⟨locks, rfl⟩ := conflicts_sound ha hbefore
  rw [hpublish] at hids ⊢
  exact (commits_of_eq hlast).sound (ha.aside locks a.notes) hids

/-- Every archive that a service can come to is sound, as long as the identifiers that were drawn
are different from each other. -/
theorem Reached.sound {a : Archive ε} (h : Reached c.service a) (hids : a.ids.Distinct) :
    a.Sound := by
  induction h with
  | start draw notes => exact Archive.sound_start draw notes
  | @submission a identity body e strict now _ ih =>
    unfold ingest at hids ⊢
    cases hvet : c.service.vet identity body e strict with
    | error err =>
      rw [hvet] at hids
      exact ih hids
    | ok envelope =>
      rw [hvet] at hids
      -- The identifiers drawn before are among those drawn since, so they differ as well.
      exact publish_sound (ih ((publish_ids a envelope body now).distinct hids)) hids
  | @commit a envelope body now _ ih =>
    have hcommits : Commits c.refuses c.settings.lockTimeout a envelope body now _ _ :=
      commit_commits a envelope body now
    exact hcommits.sound (ih (IdSupply.Continues.distinct hcommits.ids hids)) hids
  | @sweep a now _ ih =>
    obtain ⟨l, locks, -, heq⟩ := Engine.expireDue_ledger a now
    rw [heq] at hids
    exact (ih hids).expireDue now
  | meanwhile locks notes _ ih => exact (ih hids).aside locks notes

/-! ## Failures -/

/-- The artefact that a submission finds current under its key although its display window has
ended. -/
def EndedPrior (s : Service ε) (a : Archive ε) (e : SubmittedEnvelope) (now : Instant)
    (prior : Artefact) : Prop :=
  ∃ envelope, s.policy.accept e = .ok envelope ∧
    a.ledger.currentFor envelope.key = some prior ∧ prior.hasEnded now = true

/-- A publication that fails in a sound archive met a conflict in its last attempt, or its body was
refused. -/
theorem publish_error {a a' : Archive ε} (ha : a.Sound) {envelope : Envelope} {body : Bytes}
    {now : Instant} {err : PublicationError}
    (hfail : c.service.publish a envelope body now = (.error err, a')) :
    ((∀ reason, err ≠ .storage reason) ∧ ∃ locks, a' = { a with locks }) ∨
    ∃ reason existing expired l locks, err = .storage reason ∧
      Clears a.ledger envelope.key now existing expired l ∧
      a' = { a with ledger := l, locks } := by
  obtain ⟨last, attempts, r, a'', hbefore, hlast, hpublish⟩ :=
    c.service.publish_last a envelope body now
  obtain ⟨locks, rfl⟩ := conflicts_sound ha hbefore
  rw [hfail] at hpublish
  obtain ⟨hresult, rfl⟩ := Prod.mk.inj hpublish
  cases r with
  | ok c => cases hresult
  | error e =>
    obtain rfl := Except.error.inj hresult
    rcases (commits_of_eq hlast).error_cases (ha.aside locks a.notes) with
      ⟨rfl, locks', rfl⟩ | ⟨reason, existing, expired, l, locks', rfl, -, hclear, rfl⟩
    · refine .inl ⟨?_, locks', rfl⟩
      rintro reason ⟨⟩
    · exact .inr ⟨reason, existing, expired, l, locks', rfl, hclear, rfl⟩

/-- A submission that fails in a sound archive touched the locks at most, or its body was refused
after room was made for it. -/
theorem ingest_error {a a' : Archive ε} (ha : a.Sound) {identity : String} {body : Bytes}
    {e : SubmittedEnvelope} {strict : Bool} {now : Instant} {err : PublicationError}
    (hfail : c.service.ingest a identity body e strict now = (.error err, a')) :
    ((∀ reason, err ≠ .storage reason) ∧ ∃ locks, a' = { a with locks }) ∨
    ∃ reason envelope existing expired l locks, err = .storage reason ∧
      c.settings.policy.accept e = .ok envelope ∧
      Clears a.ledger envelope.key now existing expired l ∧
      a' = { a with ledger := l, locks } := by
  unfold ingest at hfail
  split at hfail
  · rename_i hvet
    obtain ⟨herr, rfl⟩ := Prod.mk.inj hfail
    obtain rfl := Except.error.inj herr
    exact .inl ⟨vet_error hvet, a.locks, rfl⟩
  · rename_i envelope hvet
    obtain ⟨-, haccept, -⟩ := vet_eq_ok_iff.mp hvet
    rcases publish_error ha hfail with hconflict |
      ⟨reason, existing, expired, l, locks, herr, hclear, hafter⟩
    · exact .inl hconflict
    · exact .inr ⟨reason, envelope, existing, expired, l, locks, herr, haccept, hclear, hafter⟩

/-- A submission that fails leaves no trace in either store, unless it fails because its body was
refused and the artefact that was current under its key had reached the end of its display. Then
that artefact has expired, and that is all. -/
theorem a_failed_submission_leaves_at_most_an_expiry {a a' : Archive ε} {identity : String}
    {body : Bytes} {e : SubmittedEnvelope} {strict : Bool} {now : Instant} {err : PublicationError}
    (hreach : Reached c.service a) (hids : a.ids.Distinct)
    (hfail : c.service.ingest a identity body e strict now = (.error err, a')) :
    a'.payloads = a.payloads ∧
    (a'.ledger ≠ a.ledger ↔ (∃ reason, err = .storage reason) ∧
      ∃ prior, c.service.EndedPrior a e now prior) ∧
    (∀ reason prior, err = .storage reason → c.service.EndedPrior a e now prior →
      ∃ expired, a.ledger.expire prior.id now = (.ok expired, a'.ledger)) := by
  have ha := hreach.sound hids
  rcases ingest_error ha hfail with ⟨hother, locks, rfl⟩ |
    ⟨reason, envelope, existing, expired, l, locks, rfl, haccept, hclear, rfl⟩
  · refine ⟨rfl, ?_, ?_⟩
    · constructor
      · intro hchanged
        exact absurd rfl hchanged
      · rintro ⟨⟨reason, herr⟩, -⟩
        exact absurd herr (hother reason)
    · intro reason prior herr
      exact absurd herr (hother reason)
  · -- The submission names one key, so the artefact that it finds there is the one of `Clears`.
    have hexpires : ∀ prior, c.service.EndedPrior a e now prior →
        ∃ expired, a.ledger.expire prior.id now = (.ok expired, l) := by
      rintro prior ⟨envelope', haccept', hp, hended⟩
      obtain rfl := Except.ok.inj (haccept.symm.trans haccept')
      exact hclear.of_ended hp hended
    refine ⟨rfl, ?_, fun _ prior _ hprior => hexpires prior hprior⟩
    dsimp only
    constructor
    · intro hchanged
      cases hclear with
      | free _ => exact absurd rfl hchanged
      | standing _ _ => exact absurd rfl hchanged
      | ended hp hended _ => exact ⟨⟨reason, rfl⟩, _, envelope, haccept, hp, hended⟩
    · rintro ⟨-, prior, hprior⟩
      obtain ⟨b, hexpire⟩ := hexpires prior hprior
      exact ha.coherent.expire_ne hexpire

end

/-! The exception comes up. A list is published and its display ends; the payload store goes
offline, and the next list for the same key is refused. -/

namespace Example

open Setup.Example (submitted later)

/-- The service; the notes tell whether its payload store is offline. -/
def service : Service Bool :=
  Setup.service ⟨Setup.Example.registry, Settings.default, .everyone,
    fun offline _ _ => if offline then some (.unavailable "blob store offline") else none⟩

/-- The archive after the first list, when the payload store has gone offline. -/
def before : Archive Bool :=
  { (service.ingest (.start .empty .ofRandom false) "press" [123, 125] submitted false .epoch).2
    with notes := true }

/-- The second list, a second later. -/
def second : Except PublicationError Published × Archive Bool :=
  service.ingest before "press" [123, 125] submitted false later

end Example

theorem a_refused_submission_leaves_an_expiry :
    Reached Example.service Example.before ∧ Example.before.ids.Distinct ∧
      Example.second.1 = .error (.storage (.unavailable "blob store offline")) ∧
      Example.second.2.payloads = Example.before.payloads ∧
      Example.second.2.ledger ≠ Example.before.ledger := by
  have hreach : Reached Example.service Example.before :=
    .meanwhile _ true (.submission "press" [123, 125] Setup.Example.submitted false .epoch
      (.start .ofRandom false))
  have hids : Example.before.ids.Distinct := by
    have hdrawn : Example.before.ids.drawn = 1 := by decide +kernel
    intro i j hij hj
    omega
  have hfail : Example.second.1 = .error (.storage (.unavailable "blob store offline")) := by
    decide +kernel
  obtain ⟨hpayloads, -, -⟩ := a_failed_submission_leaves_at_most_an_expiry hreach hids
    (Prod.ext hfail rfl : Example.second = (_, Example.second.2))
  exact ⟨hreach, hids, hfail, hpayloads, by decide +kernel⟩

end Service

end CauseLists
