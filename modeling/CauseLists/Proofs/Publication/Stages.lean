-- The stages of a submission in their order. A stage that refuses ends the submission: its answer
-- does not depend on what a later stage would have looked at, and the stores are not touched. They
-- are called for nothing but an envelope that has passed every stage, and for its list type the
-- identity was asked about.
import CauseLists.Proofs.Publication.Attempts
import CauseLists.Proofs.Publication.Vetting

namespace CauseLists

variable {ε : Type}

/-! ## Stores that note their calls -/

/-- A call to the stores. -/
inductive StoreCall
  | persist (envelope : Envelope) (body : Bytes)
  | commit (c : Commit)
deriving DecidableEq, Repr

/-- The envelope that a call is for. -/
def StoreCall.envelope : StoreCall → Envelope
  | .persist envelope _ => envelope
  | .commit c => c.artefact.envelope

/-- The archive with other notes. -/
def Archive.noted {δ : Type} (a : Archive ε) (notes : δ) : Archive δ :=
  ⟨a.ledger, a.payloads, a.locks, a.ids, notes⟩

/-- Stores that note down every call, and answer it as other stores do. -/
def Stores.noting (stores : Stores ε) : Stores (ε × List StoreCall) where
  persist a envelope body :=
    let (result, b) := stores.persist (a.noted a.notes.1) envelope body
    (result, b.noted (b.notes, a.notes.2 ++ [.persist envelope body]))
  commit a c :=
    let (result, b) := stores.commit (a.noted a.notes.1) c
    (result, b.noted (b.notes, a.notes.2 ++ [.commit c]))

/-- From one archive to the other the stores were called for one envelope only, if at all. -/
def Archive.CalledFor (envelope : Envelope) (a b : Archive (ε × List StoreCall)) : Prop :=
  ∃ calls, b.notes.2 = a.notes.2 ++ calls ∧ ∀ c ∈ calls, c.envelope = envelope

namespace Archive.CalledFor

variable {envelope : Envelope} {a b c : Archive (ε × List StoreCall)}

theorem aside (h : b.notes = a.notes) : a.CalledFor envelope b :=
  ⟨[], by simp [h], by simp⟩

theorem one {call : StoreCall} (h : b.notes.2 = a.notes.2 ++ [call])
    (hcall : call.envelope = envelope) : a.CalledFor envelope b :=
  ⟨[call], h, by simp [hcall]⟩

theorem trans (h : a.CalledFor envelope b) (h' : b.CalledFor envelope c) :
    a.CalledFor envelope c := by
  obtain ⟨calls, hnotes, hcalls⟩ := h
  obtain ⟨more, hnotes', hmore⟩ := h'
  refine ⟨calls ++ more, by rw [hnotes', hnotes, List.append_assoc], ?_⟩
  intro call hcall
  rcases List.mem_append.mp hcall with hcall | hcall
  · exact hcalls call hcall
  · exact hmore call hcall

end Archive.CalledFor

namespace Engine

theorem commitLocked_calls (stores : Stores ε) (timeout : Nat)
    (a : Archive (ε × List StoreCall)) (envelope : Envelope) (body : Bytes) (now : Instant) :
    a.CalledFor envelope (commitLocked ⟨stores.noting, timeout⟩ a envelope body now).2 := by
  unfold commitLocked
  rcases clearEnded_cases a envelope.key now with
    ⟨p, err, -, -, -, hclear⟩ | ⟨existing, expired, l, -, hclear⟩
  · rw [hclear]
    exact .aside rfl
  · rw [hclear]
    dsimp only
    cases hpersist : stores.noting.persist { a with ledger := l } envelope body with
    | mk kept b =>
      have hkept : a.CalledFor envelope b :=
        .one (congrArg (fun r => r.2.notes.2) hpersist).symm rfl
      cases kept with
      | error err => exact hkept
      | ok stored =>
        dsimp only
        cases hcommit : stores.noting.commit { b with ids := b.ids.next.2 }
            ⟨.new b.ids.next.1 envelope stored now, (resolve envelope existing now).prior, now⟩ with
        | mk done d =>
          have hdone : b.CalledFor envelope d :=
            .one (congrArg (fun r => r.2.notes.2) hcommit).symm rfl
          cases done with
          | error err => exact hkept.trans hdone
          | ok artefact => exact hkept.trans hdone

theorem commit_calls (stores : Stores ε) (timeout : Nat) (a : Archive (ε × List StoreCall))
    (envelope : Envelope) (body : Bytes) (now : Instant) :
    a.CalledFor envelope (commit ⟨stores.noting, timeout⟩ a envelope body now).2 := by
  unfold commit
  rcases withLock_cases a envelope.key
    (.error (.conflict envelope.key.text (.lockTimeout timeout)))
    (fun a => commitLocked ⟨stores.noting, timeout⟩ a envelope body now) with
    ⟨locks, heq⟩ | ⟨held, locks, heq⟩
  · dsimp only at heq ⊢
    rw [heq]
    exact .aside rfl
  · dsimp only at heq ⊢
    rw [heq]
    exact commitLocked_calls stores timeout { a with locks := held } envelope body now

end Engine

/-! ## Ends -/

/-- The list type that a submitted envelope names, if its text for it is one. -/
def SubmittedEnvelope.named (e : SubmittedEnvelope) : Option ListType :=
  e.listType.bind (fun text => (ListType.parse text).toOption)

namespace Service

variable {s : Service ε} {identity : String} {body : Bytes} {e : SubmittedEnvelope}
  {strict : Bool} {envelope : Envelope}

/-- The service over another engine, with other retries. -/
def onto {δ : Type} (s : Service ε) (engine : Engine δ) (retry : RetryPolicy) : Service δ :=
  ⟨s.registry, s.policy, s.authorizer, engine, retry⟩

/-- A submission ends with an error before the commit: whatever the stores do and hold, however
often one tries and whatever the time, this is the answer, and nothing is changed. -/
def EndsWith (s : Service ε) (identity : String) (body : Bytes) (e : SubmittedEnvelope)
    (strict : Bool) (err : PublicationError) : Prop :=
  ∀ (δ : Type) (engine : Engine δ) (retry : RetryPolicy) (a : Archive δ) (now : Instant),
    (s.onto engine retry).ingest a identity body e strict now = (.error err, a)

/-- The vetting looks at nothing that belongs to the commit. -/
theorem endsWith_of_vet {err : PublicationError} (h : s.vet identity body e strict = .error err) :
    s.EndsWith identity body e strict err := by
  intro δ engine retry a now
  have hvet : (s.onto engine retry).vet identity body e strict = .error err := h
  rw [ingest, hvet]

/-- What a submission has to have for its envelope to be committed. -/
structure Vetted (s : Service ε) (identity : String) (body : Bytes) (e : SubmittedEnvelope)
    (strict : Bool) (envelope : Envelope) : Prop where
  allowed : s.authorizer.allows identity envelope.listType = true
  accepted : s.policy.accept e = .ok envelope
  /-- The list type is registered, and the body is a document without violations. -/
  valid : ∃ rules document, s.registry.get? envelope.listType = some rules ∧
    Json.parse body = .ok document ∧ rules.check (Mode.ofFlag strict) document = []

theorem vetted_of_vet (h : s.vet identity body e strict = .ok envelope) :
    s.Vetted identity body e strict envelope := by
  obtain ⟨hauthorize, haccept, hvalid⟩ := vet_eq_ok_iff.mp h
  exact ⟨allows_of_authorize hauthorize haccept, haccept, hvalid⟩

/-- A submission has all that a commit takes, or it ends before it. -/
theorem vetted_or_ends (s : Service ε) (identity : String) (body : Bytes) (e : SubmittedEnvelope)
    (strict : Bool) : (∃ envelope, s.Vetted identity body e strict envelope) ∨
      ∃ err, s.EndsWith identity body e strict err := by
  cases hvet : s.vet identity body e strict with
  | error err => exact .inr ⟨err, endsWith_of_vet hvet⟩
  | ok envelope => exact .inl ⟨envelope, vetted_of_vet hvet⟩

/-! ## Calls of the stores -/

/-- A publication calls the stores for its own envelope only, however often it is tried. -/
theorem publish_calls {δ : Type} (s : Service ε) (stores : Stores δ) (timeout : Nat)
    (retry : RetryPolicy) (a : Archive (δ × List StoreCall)) (envelope : Envelope) (body : Bytes)
    (now : Instant) : a.CalledFor envelope
      ((s.onto ⟨stores.noting, timeout⟩ retry).publish a envelope body now).2 := by
  obtain ⟨last, attempts, r, after, hbefore, hlast, hpublish⟩ :=
    (s.onto ⟨stores.noting, timeout⟩ retry).publish_last a envelope body now
  have hone : ∀ {b c r}, Engine.commit ⟨stores.noting, timeout⟩ b envelope body now = (r, c) →
      b.CalledFor envelope c := by
    intro b c r hcommit
    have hcalls := Engine.commit_calls stores timeout b envelope body now
    rw [hcommit] at hcalls
    exact hcalls
  have hconflicts : a.CalledFor envelope last := by
    clear hlast hpublish
    induction hbefore with
    | refl => exact .aside rfl
    | @tail b c _ hconflict ih =>
      obtain ⟨subject, contention, hcommit⟩ := hconflict
      exact ih.trans (hone hcommit)
  rw [hpublish]
  exact hconflicts.trans (hone hlast)

/-- The stores are called for nothing but vetted envelopes. -/
theorem ingest_calls {δ : Type} (s : Service ε) (stores : Stores δ) (timeout : Nat)
    (retry : RetryPolicy) (a : Archive (δ × List StoreCall)) (identity : String) (body : Bytes)
    (e : SubmittedEnvelope) (strict : Bool) (now : Instant) :
    ∃ calls, ((s.onto ⟨stores.noting, timeout⟩ retry).ingest a identity body e strict now).2.notes.2
        = a.notes.2 ++ calls ∧
      ∀ c ∈ calls, s.Vetted identity body e strict c.envelope := by
  cases hvet : s.vet identity body e strict with
  | error err =>
    rw [endsWith_of_vet hvet]
    exact ⟨[], by simp, by simp⟩
  | ok envelope =>
    have hpublish : (s.onto ⟨stores.noting, timeout⟩ retry).ingest a identity body e strict now =
        (s.onto ⟨stores.noting, timeout⟩ retry).publish a envelope body now := by
      have hsame : (s.onto ⟨stores.noting, timeout⟩ retry).vet identity body e strict =
          .ok envelope := hvet
      rw [ingest, hsame]
    obtain ⟨calls, hnotes, hcalls⟩ :=
      s.publish_calls stores timeout retry a envelope body now
    rw [hpublish]
    exact ⟨calls, hnotes, fun c hc => hcalls c hc ▸ vetted_of_vet hvet⟩

/-! ## Refusals -/

theorem authorize_of_named {t : ListType} (hnamed : e.named = some t) :
    s.authorize identity e = if s.authorizer.allows identity t then .ok ()
      else .error (.unauthorized identity t) := by
  unfold SubmittedEnvelope.named at hnamed
  rw [authorize, hnamed]

theorem authorize_of_unnamed (hnamed : e.named = none) : s.authorize identity e = .ok () := by
  unfold SubmittedEnvelope.named at hnamed
  rw [authorize, hnamed]

/-- Authorization is passed by whoever may publish the list type that is named, if one is. -/
theorem authorize_eq_ok_iff : s.authorize identity e = .ok () ↔
    ∀ t, e.named = some t → s.authorizer.allows identity t = true := by
  cases hnamed : e.named with
  | none => simp [authorize_of_unnamed hnamed]
  | some t => simp [authorize_of_named hnamed]

theorem endsWith_unauthorized {err : PublicationError} (h : s.authorize identity e = .error err) :
    s.EndsWith identity body e strict err := by
  apply endsWith_of_vet
  rw [vet, h]
  rfl

theorem endsWith_unaccepted {report : EnvelopeReport} (h : s.authorize identity e = .ok ())
    (haccept : s.policy.accept e = .error report) :
    s.EndsWith identity body e strict (.envelope report) := by
  apply endsWith_of_vet
  rw [vet, h, haccept]
  rfl

theorem endsWith_unregistered (h : s.authorize identity e = .ok ())
    (haccept : s.policy.accept e = .ok envelope)
    (hregistry : s.registry.get? envelope.listType = none) :
    s.EndsWith identity body e strict (.registry (.unknownListType envelope.listType)) := by
  have hrules : s.registry.rulesFor envelope.listType =
      .error (.unknownListType envelope.listType) := by
    rw [Registry.rulesFor, hregistry]
  apply endsWith_of_vet
  rw [vet, h, haccept]
  show (s.registry.rulesFor envelope.listType).mapError PublicationError.registry >>= _ = _
  rw [hrules]
  rfl

/-- An envelope that names no list type is not accepted. -/
theorem unaccepted_of_unnamed (p : EnvelopePolicy) (hnamed : e.named = none) :
    ∃ report, p.accept e = .error report := by
  cases haccept : p.accept e with
  | error report => exact ⟨report, rfl⟩
  | ok envelope =>
    obtain ⟨-, -, -, -, -, -, -, hlist, -⟩ := EnvelopePolicy.accept_eq_ok_iff.mp haccept
    obtain ⟨raw, hraw, hparse⟩ := EnvelopePolicy.listType_eq_ok_iff.mp hlist
    rw [SubmittedEnvelope.named, hraw, Option.bind_some, hparse] at hnamed
    cases hnamed

/-- The stages of a submission come in order, for an identity and an envelope: each refuses with an
answer that does not depend on what is looked at after it. -/
structure InOrder (s : Service ε) (identity : String) (e : SubmittedEnvelope) : Prop where
  /-- A submission has all that a commit takes, or it ends before the stores are asked. -/
  complete : ∀ body strict, (∃ envelope, s.Vetted identity body e strict envelope) ∨
    ∃ err, s.EndsWith identity body e strict err
  /-- Whatever the stores are called for has been vetted. -/
  calls : ∀ {δ : Type} (stores : Stores δ) timeout retry (a : Archive (δ × List StoreCall)) body
    strict now, ∃ calls,
      ((s.onto ⟨stores.noting, timeout⟩ retry).ingest a identity body e strict now).2.notes.2 =
        a.notes.2 ++ calls ∧ ∀ c ∈ calls, s.Vetted identity body e strict c.envelope
  /-- Who may not publish a list type gets one answer, whatever else the envelope holds. -/
  unauthorized : ∀ t, e.named = some t → s.authorizer.allows identity t = false →
    ∀ body strict e', e'.named = some t →
      s.EndsWith identity body e' strict (.unauthorized identity t)
  /-- Otherwise an envelope that is not accepted gets one answer. -/
  envelope : (∀ t, e.named = some t → s.authorizer.allows identity t = true) →
    ∀ report, s.policy.accept e = .error report →
      ∀ body strict, s.EndsWith identity body e strict (.envelope report)
  /-- Otherwise a list type that is not registered gets one answer. -/
  registry : (∀ t, e.named = some t → s.authorizer.allows identity t = true) →
    ∀ accepted, s.policy.accept e = .ok accepted →
      s.registry.get? accepted.listType = none → ∀ body strict,
        s.EndsWith identity body e strict (.registry (.unknownListType accepted.listType))
  /-- An envelope that names no list type is refused for it, whoever may publish what. -/
  unnamed : e.named = none → ∃ report, ∀ authorizer body strict,
    { s with authorizer }.EndsWith identity body e strict (.envelope report)

/-- Authorization cannot be passed by. For every service, identity and envelope the stages come in
order. -/
theorem stages_come_in_order (s : Service ε) (identity : String) (e : SubmittedEnvelope) :
    s.InOrder identity e where
  complete := fun body strict => s.vetted_or_ends identity body e strict
  calls := fun stores timeout retry a body strict now =>
    s.ingest_calls stores timeout retry a identity body e strict now
  unauthorized := by
    intro t _ hrefused body strict e' hnamed
    apply endsWith_unauthorized
    rw [authorize_of_named hnamed, hrefused]
    rfl
  envelope := fun hallowed report haccept body strict =>
    endsWith_unaccepted (authorize_eq_ok_iff.mpr hallowed) haccept
  registry := fun hallowed accepted haccept hregistry body strict =>
    endsWith_unregistered (authorize_eq_ok_iff.mpr hallowed) haccept hregistry
  unnamed := by
    intro hnamed
    obtain ⟨report, haccept⟩ := unaccepted_of_unnamed s.policy hnamed
    exact ⟨report, fun authorizer body strict =>
      endsWith_unaccepted (s := { s with authorizer }) (authorize_of_unnamed hnamed) haccept⟩

/-! A service that lets one identity publish, and a stranger with the same envelope. -/

namespace Example

open Setup.Example (submitted)

def daily : ListType := ⟨"DAILY_LIST", ListType.isCanonical_daily⟩

def guarded : Service Unit :=
  Setup.service ⟨Setup.Example.registry, Settings.default,
    .listed (AllowList.empty.grant "press" daily), fun _ _ _ => none⟩

theorem submitted_named : submitted.named = some daily := by decide +kernel

end Example

theorem a_stranger_gets_one_answer :
    Example.guarded.authorizer.allows "press" Example.daily = true ∧
      ∀ body strict, Example.guarded.EndsWith "stranger" body Setup.Example.submitted strict
        (.unauthorized "stranger" Example.daily) := by
  have hstranger : Example.guarded.authorizer.allows "stranger" Example.daily = false := by decide
  refine ⟨by decide, fun body strict => ?_⟩
  exact (stages_come_in_order Example.guarded "stranger" Setup.Example.submitted).unauthorized
    Example.daily Example.submitted_named hstranger body strict Setup.Example.submitted
    Example.submitted_named

end Service

end CauseLists
