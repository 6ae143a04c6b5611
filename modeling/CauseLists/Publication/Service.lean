-- Publishing a submission. The stages come in a fixed order, and the first that refuses ends it:
-- who submits, the envelope, the rule set, the body, and last the commit. Until the commit nothing
-- is changed.
import CauseLists.Authorization
import CauseLists.Inspection.Verdict
import CauseLists.Publication.Retry

namespace CauseLists

/-- Why a submission is not published. -/
inductive PublicationError
  | unauthorized (identity : String) (listType : ListType)
  | envelope (report : EnvelopeReport)
  | body (report : BodyReport)
  /-- There are no rules to judge by, which is not the fault of the submission. -/
  | registry (error : RegistryError)
  /-- Others were faster in every attempt. -/
  | conflict (subject : String) (attempts : Nat)
  | storage (error : StorageError)
  | transition (error : TransitionError)
deriving DecidableEq, Repr

namespace PublicationError

def message : PublicationError → String
  | .unauthorized identity listType =>
    identity ++ " is not authorized to publish " ++ listType.name
  | .envelope report => report.message
  | .body report => report.message
  | .registry e => "configuration error: " ++ e.message
  | .conflict subject attempts =>
    "supersession conflict for " ++ subject ++ " persisted after " ++ toString attempts ++
      " attempt(s)"
  | .storage e => e.message
  | .transition e => e.message

/-- The content of the submission is at fault. -/
def isContentRejection : PublicationError → Bool
  | .envelope _ => true
  | .body _ => true
  | _ => false

/-- A commit that was given up after some attempts. -/
def ofCommit (attempts : Nat) : CommitError → PublicationError
  | .conflict subject _ => .conflict subject attempts
  | .storage e => .storage e
  | .transition e => .transition e

end PublicationError

/-- A submission that was published. -/
structure Published where
  /-- The artefact, current for its key from now on. -/
  artefact : Artefact
  decision : Decision
  /-- The number of attempts that the commit took. -/
  attempts : Nat
deriving DecidableEq, Repr

/-- A publication service. -/
structure Service (ε : Type) where
  registry : Registry
  policy : EnvelopePolicy
  authorizer : Authorizer
  engine : Engine ε
  retry : RetryPolicy

namespace Service

variable {ε : Type}

/-- The service that settings describe. -/
def ofSettings (registry : Registry) (settings : Settings) (authorizer : Authorizer)
    (stores : Stores ε) : Service ε :=
  ⟨registry, settings.policy, authorizer, ⟨stores, settings.lockTimeout⟩, settings.retryPolicy⟩

/-- Asks whether an identity may publish the list type that an envelope names. A name that is
missing or malformed cannot be asked about; the envelope is refused for it later. -/
def authorize (s : Service ε) (identity : String) (e : SubmittedEnvelope) :
    Except PublicationError Unit :=
  match e.listType.bind (fun text => (ListType.parse text).toOption) with
  | none => .ok ()
  | some listType =>
    if s.authorizer.allows identity listType then .ok ()
    else .error (.unauthorized identity listType)

/-- Everything that is asked of a submission before it is committed. Gives the envelope in its
canonical form. -/
def vet (s : Service ε) (identity : String) (body : Bytes) (e : SubmittedEnvelope)
    (strict : Bool) : Except PublicationError Envelope := do
  s.authorize identity e
  let envelope ← (s.policy.accept e).mapError .envelope
  let rules ← (s.registry.rulesFor envelope.listType).mapError .registry
  let _ ← (rules.judgeBody (Mode.ofFlag strict) body).mapError .body
  return envelope

/-- Commits a submission that was vetted, and tries again after conflicts. -/
def publish (s : Service ε) (a : Archive ε) (envelope : Envelope) (body : Bytes) (now : Instant) :
    Except PublicationError Published × Archive ε :=
  let (tried, a) := s.retry.run (fun a => s.engine.commit a envelope body now) a
  match tried.result with
  | .ok c => (.ok ⟨c.artefact, c.decision, tried.attempts⟩, a)
  | .error e => (.error (.ofCommit tried.attempts e), a)

/-- Judges a submission and, if it passes, commits it. -/
def ingest (s : Service ε) (a : Archive ε) (identity : String) (body : Bytes)
    (e : SubmittedEnvelope) (strict : Bool) (now : Instant) :
    Except PublicationError Published × Archive ε :=
  match s.vet identity body e strict with
  | .error err => (.error err, a)
  | .ok envelope => s.publish a envelope body now

end Service

end CauseLists
