-- What stands in the stores of a service. Each artefact goes back to a submission that was
-- accepted, whoever has superseded or expired it since, and its body can be read back and is valid,
-- whether it was judged strictly or not and whichever submission brought its bytes first.
import CauseLists.Proofs.Envelope.Acceptance
import CauseLists.Proofs.Inspection.Passing
import CauseLists.Proofs.Payload.Blobs
import CauseLists.Proofs.Publication.Attempts
import CauseLists.Proofs.Publication.Vetting
import CauseLists.Proofs.Supersession.Sweeps

namespace CauseLists

open Relation (ReflTransGen)

variable {ε : Type} {refuses : ε → Envelope → Bytes → Option StorageError}

/-! ## Turns -/

/-- A submission as it comes to a service. -/
structure Submission where
  identity : String
  body : Bytes
  envelope : SubmittedEnvelope
  strict : Bool
  now : Instant
deriving DecidableEq, Repr

/-- One turn of a service. -/
inductive Turn (ε : Type)
  | submission (s : Submission)
  | sweep (now : Instant)
  /-- Others take or give back locks, and the stores note something down. -/
  | meanwhile (locks : KeyLocks IdentityKey) (notes : ε)

namespace Service

/-- Publishes a submission. -/
def submit (s : Service ε) (a : Archive ε) (sub : Submission) :
    Except PublicationError Published × Archive ε :=
  s.ingest a sub.identity sub.body sub.envelope sub.strict sub.now

/-- The archive after a turn. -/
def turn (s : Service ε) (a : Archive ε) : Turn ε → Archive ε
  | .submission sub => (s.submit a sub).2
  | .sweep now => (Engine.expireDue a now).2
  | .meanwhile locks notes => { a with locks, notes }

/-- The archive after some turns. -/
def serve (s : Service ε) (a : Archive ε) (turns : List (Turn ε)) : Archive ε :=
  turns.foldl s.turn a

theorem serve_concat (s : Service ε) (a : Archive ε) (turns : List (Turn ε)) (t : Turn ε) :
    s.serve a (turns ++ [t]) = s.turn (s.serve a turns) t := by
  simp [serve]

end Service

/-! ## Bodies -/

/-- Bytes that are a valid document of a list type, as far as everyone has to comply. -/
def Registry.Vets (r : Registry) (t : ListType) (bytes : Bytes) : Prop :=
  ∃ rules document, r.get? t = some rules ∧ Json.parse bytes = .ok document ∧
    rules.check .basic document = []

/-- Every body in memory is valid for its list type, and every artefact refers to one. -/
structure Archive.Housed (r : Registry) (blobs : Blobs) (a : Archive ε) : Prop where
  memory : a.payloads = .memory blobs
  valid : blobs.All r.Vets
  kept : ∀ {id x}, a.ledger.get? id = some x → blobs.Refers x.envelope.listType x.body

namespace Archive.Housed

variable {r : Registry} {blobs : Blobs} {a : Archive ε}

theorem start (draw : Nat → ArtefactId) (notes : ε) :
    (Archive.start .empty draw notes).Housed r [] where
  memory := rfl
  valid := Blobs.all_nil
  kept := by simp [Archive.start, Ledger.empty, Ledger.get?]

/-- A ledger without new artefacts refers to nothing new. -/
theorem relist (h : a.Housed r blobs) {a' : Archive ε} (hpayloads : a'.payloads = a.payloads)
    (hledger : ∀ {id x}, a'.ledger.get? id = some x →
      ∃ b, a.ledger.get? id = some b ∧ b.SameRecord x) : a'.Housed r blobs := by
  refine ⟨hpayloads.trans h.memory, h.valid, ?_⟩
  intro id x hx
  obtain ⟨b, hb, hsame⟩ := hledger hx
  rw [hsame.envelope, hsame.body]
  exact h.kept hb

/-- A body that is vetted may be kept, and one new artefact may refer to it. -/
theorem keep (h : a.Housed r blobs) {t : ListType} {body : Bytes} (hvets : r.Vets t body)
    {a' : Archive ε} (hpayloads : a'.payloads = .memory (blobs.persist t body).2)
    (hledger : ∀ {id x}, a'.ledger.get? id = some x →
      (∃ b, a.ledger.get? id = some b ∧ b.SameRecord x) ∨
      x.envelope.listType = t ∧ x.body = (blobs.persist t body).1) :
    a'.Housed r (blobs.persist t body).2 := by
  refine ⟨hpayloads, Blobs.All.persist h.valid hvets, ?_⟩
  intro id x hx
  rcases hledger hx with ⟨b, hb, hsame⟩ | ⟨ht, hbody⟩
  · rw [hsame.envelope, hsame.body]
    exact (h.kept hb).persist t body
  · rw [ht, hbody]
    exact Blobs.refers_persist blobs t body

end Archive.Housed

/-- A commit of a vetted body keeps the bodies in order. -/
theorem Commits.housed {timeout : Nat} {r : Registry} {blobs : Blobs} {a a' : Archive ε}
    (ha : a.Housed r blobs) {envelope : Envelope} {body : Bytes}
    (hvets : r.Vets envelope.listType body) {now : Instant}
    {result : Except CommitError Committed}
    (h : Commits refuses timeout a envelope body now result a') : ∃ blobs', a'.Housed r blobs' := by
  have hkept := Archive.keep_of_memory ha.memory refuses envelope body
  cases h with
  | contended locks => exact ⟨blobs, ha.relist rfl (fun hx => ⟨_, hx, .refl _⟩)⟩
  | uncleared locks _ _ _ => exact ⟨blobs, ha.relist rfl (fun hx => ⟨_, hx, .refl _⟩)⟩
  | unkept locks hclear hkeep =>
    rw [hkeep] at hkept
    rcases hkept with ⟨e, -, heq⟩ | heq
    · exact ⟨blobs, ha.relist (Prod.mk.inj heq).2 hclear.record⟩
    · cases (Prod.mk.inj heq).1
  | uncommitted locks hclear hkeep hcommit =>
    rw [hkeep] at hkept
    rcases hkept with ⟨e, -, heq⟩ | heq
    · cases (Prod.mk.inj heq).1
    · exact ⟨_, ha.keep hvets (Prod.mk.inj heq).2 (fun hx => .inl (hclear.record hx))⟩
  | committed locks hclear hkeep hcommit =>
    rw [hkeep] at hkept
    rcases hkept with ⟨e, -, heq⟩ | heq
    · cases (Prod.mk.inj heq).1
    · obtain ⟨hstored, hpayloads⟩ := Prod.mk.inj heq
      refine ⟨_, ha.keep hvets hpayloads ?_⟩
      intro id x hx
      -- Either the artefact is the new one, or it was there before room was made for the new one.
      rcases Ledger.record_of_commit hcommit hx with ⟨-, rfl⟩ | ⟨b, hb, hsame⟩
      · obtain ⟨-, henvelope, hbody, -⟩ := Ledger.commit_artefact hcommit
        refine .inr ⟨congrArg Envelope.listType henvelope, hbody.trans (Except.ok.inj hstored)⟩
      · obtain ⟨c, hc, hsame'⟩ := hclear.record hb
        exact .inl ⟨c, hc, hsame'.trans hsame⟩

/-! ## Publications -/

/-- What attempts that meet conflicts keep: the bodies stay in order and no artefact comes in. -/
theorem conflicts_housed {timeout : Nat} {r : Registry} {envelope : Envelope} {body : Bytes}
    {now : Instant} (hvets : r.Vets envelope.listType body) {a last : Archive ε}
    (h : ReflTransGen (RetryPolicy.Conflicts (fun a =>
      Engine.commit ⟨.refusing refuses, timeout⟩ a envelope body now)) a last) {blobs : Blobs}
    (ha : a.Housed r blobs) :
    (∃ blobs', last.Housed r blobs') ∧ ∀ {id x}, last.ledger.get? id = some x →
      ∃ b, a.ledger.get? id = some b ∧ b.SameRecord x := by
  induction h with
  | refl => exact ⟨⟨blobs, ha⟩, fun hx => ⟨_, hx, .refl _⟩⟩
  | tail _ hstep ih =>
    obtain ⟨⟨blobs', hbefore⟩, hrecord⟩ := ih
    obtain ⟨subject, contention, hact⟩ := hstep
    refine ⟨(commits_of_eq hact).housed hbefore hvets, ?_⟩
    intro id x hx
    rcases (commits_of_eq hact).record hx with ⟨b, hb, hsame⟩ | ⟨c, hresult, -⟩
    · obtain ⟨d, hd, hsame'⟩ := hrecord hb
      exact ⟨d, hd, hsame'.trans hsame⟩
    · cases hresult

namespace Service

variable {c : Setup ε}

/-- A submission that passed vetting comes from someone who may publish its list type, and its
body is valid. -/
theorem vets_of_vet {sub : Submission} {envelope : Envelope}
    (h : c.service.vet sub.identity sub.body sub.envelope sub.strict = .ok envelope) :
    c.authorizer.allows sub.identity envelope.listType = true ∧
      c.settings.policy.accept sub.envelope = .ok envelope ∧
      c.registry.Vets envelope.listType sub.body := by
  obtain ⟨hauthorize, haccept, rules, document, hrules, hparse, hcheck⟩ := vet_eq_ok_iff.mp h
  exact ⟨allows_of_authorize hauthorize haccept, haccept, rules, document, hrules, hparse,
    rules.check_basic_of_check hcheck⟩

/-- What a submission does to the stores: the bodies stay in order, and the one artefact that may
come in is that of the answer. -/
theorem submit_housed {blobs : Blobs} {a : Archive ε} (ha : a.Housed c.registry blobs)
    (sub : Submission) :
    (∃ blobs', (c.service.submit a sub).2.Housed c.registry blobs') ∧
    ∀ {id x}, (c.service.submit a sub).2.ledger.get? id = some x →
      (∃ b, a.ledger.get? id = some b ∧ b.SameRecord x) ∨
        ∃ p, (c.service.submit a sub).1 = .ok p ∧ p.artefact = x := by
  unfold submit ingest
  cases hvet : c.service.vet sub.identity sub.body sub.envelope sub.strict with
  | error err => exact ⟨⟨blobs, ha⟩, fun hx => .inl ⟨_, hx, .refl _⟩⟩
  | ok envelope =>
    obtain ⟨-, -, hvets⟩ := vets_of_vet hvet
    obtain ⟨last, attempts, result, a', hbefore, hlast, hpublish⟩ :=
      c.service.publish_last a envelope sub.body sub.now
    obtain ⟨⟨blobs', hhoused⟩, hrecord⟩ := conflicts_housed hvets hbefore ha
    dsimp only
    rw [hpublish]
    refine ⟨(commits_of_eq hlast).housed hhoused hvets, ?_⟩
    intro id x hx
    rcases (commits_of_eq hlast).record hx with ⟨b, hb, hsame⟩ | ⟨c, rfl, hc⟩
    · obtain ⟨d, hd, hsame'⟩ := hrecord hb
      exact .inl ⟨d, hd, hsame'.trans hsame⟩
    · exact .inr ⟨_, rfl, hc⟩

/-- The artefact of a publication has the envelope that was accepted for it. -/
theorem accepted_of_submit {a : Archive ε} {sub : Submission} {p : Published}
    (h : (c.service.submit a sub).1 = .ok p) :
    c.service.vet sub.identity sub.body sub.envelope sub.strict = .ok p.artefact.envelope := by
  unfold submit ingest at h
  split at h
  · cases h
  · rename_i envelope hvet
    obtain ⟨last, attempts, result, a', -, hlast, hpublish⟩ :=
      c.service.publish_last a envelope sub.body sub.now
    rw [hpublish] at h
    cases result with
    | error e => cases h
    | ok c =>
      obtain rfl := Except.ok.inj h
      rw [hvet, ← (commits_of_eq hlast).envelope]

/-- What a turn does to the stores. -/
theorem turn_housed {blobs : Blobs} {a : Archive ε} (ha : a.Housed c.registry blobs)
    (t : Turn ε) :
    (∃ blobs', (c.service.turn a t).Housed c.registry blobs') ∧
    ∀ {id x}, (c.service.turn a t).ledger.get? id = some x →
      (∃ b, a.ledger.get? id = some b ∧ b.SameRecord x) ∨
        ∃ sub p, t = .submission sub ∧ (c.service.submit a sub).1 = .ok p ∧ p.artefact = x := by
  cases t with
  | submission sub =>
    obtain ⟨hafter, hrecord⟩ := submit_housed ha sub
    refine ⟨hafter, ?_⟩
    intro id x hx
    rcases hrecord hx with hold | ⟨p, hp, hpx⟩
    · exact .inl hold
    · exact .inr ⟨sub, p, rfl, hp, hpx⟩
  | sweep now =>
    obtain ⟨l, locks, hl, heq⟩ := Engine.expireDue_ledger a now
    dsimp only [turn]
    rw [heq]
    have hrecord : ∀ {id x}, l.get? id = some x → ∃ b, a.ledger.get? id = some b ∧ b.SameRecord x :=
      fun hx => Ledger.record_of_expires hl hx
    exact ⟨⟨blobs, ha.relist rfl hrecord⟩, fun hx => .inl (hrecord hx)⟩
  | meanwhile locks notes =>
    have hrecord : ∀ {id x}, a.ledger.get? id = some x →
        ∃ b, a.ledger.get? id = some b ∧ b.SameRecord x := fun hx => ⟨_, hx, .refl _⟩
    exact ⟨⟨blobs, ha.relist rfl hrecord⟩, fun hx => .inl (hrecord hx)⟩

/-! ## Whole runs -/

/-- The artefact goes back to one of some turns, a submission that was accepted. -/
def ComesFrom (s : Service ε) (a : Archive ε) (turns : List (Turn ε)) (sub : Submission)
    (x : Artefact) : Prop :=
  ∃ earlier later p, turns = earlier ++ .submission sub :: later ∧
    (s.submit (s.serve a earlier) sub).1 = .ok p ∧ p.artefact.SameRecord x

theorem ComesFrom.concat {s : Service ε} {a : Archive ε} {turns : List (Turn ε)}
    {sub : Submission} {b x : Artefact} (h : s.ComesFrom a turns sub b) (hsame : b.SameRecord x)
    (t : Turn ε) : s.ComesFrom a (turns ++ [t]) sub x := by
  obtain ⟨earlier, later, p, rfl, hp, hrecord⟩ := h
  exact ⟨earlier, later ++ [t], p, by simp, hp, hrecord.trans hsame⟩

/-- The invariant of the turns of a service. -/
theorem serve_housed (draw : Nat → ArtefactId) (notes : ε) (turns : List (Turn ε)) :
    (∃ blobs, (c.service.serve (.start .empty draw notes) turns).Housed c.registry blobs) ∧
    ∀ {id x}, (c.service.serve (.start .empty draw notes) turns).ledger.get? id = some x →
      ∃ sub, c.service.ComesFrom (.start .empty draw notes) turns sub x := by
  induction turns using List.reverseRecOn with
  | nil =>
    refine ⟨⟨[], Archive.Housed.start draw notes⟩, ?_⟩
    intro id x hx
    simp [serve, Archive.start, Ledger.empty, Ledger.get?] at hx
  | append_singleton turns t ih =>
    obtain ⟨⟨blobs, hhoused⟩, hcomes⟩ := ih
    obtain ⟨hafter, hrecord⟩ := turn_housed hhoused t
    rw [serve_concat]
    refine ⟨hafter, ?_⟩
    intro id x hx
    rcases hrecord hx with ⟨b, hb, hsame⟩ | ⟨sub, p, rfl, hp, rfl⟩
    · obtain ⟨sub, hsub⟩ := hcomes hb
      exact ⟨sub, hsub.concat hsame t⟩
    · exact ⟨sub, turns, [], p, rfl, hp, .refl _⟩

/-- An artefact that deserves its place in the stores. -/
structure Valid (s : Service ε) (payloads : PayloadStore) (x : Artefact) : Prop where
  window : x.envelope.displayFrom ≤ x.envelope.displayTo
  provenance : Text.trim x.envelope.provenance = x.envelope.provenance ∧ x.envelope.provenance ≠ ""
  location : Text.trim x.envelope.location = x.envelope.location ∧ x.envelope.location ≠ ""
  /-- Its list type is registered, and its body can be read back and is valid. -/
  body : ∃ bytes, payloads.fetch x.body = .ok bytes ∧ s.registry.Vets x.envelope.listType bytes

/-- Everything that is stored is valid, and was accepted from someone who may publish its list
type. It does not matter what became of the artefact since, which of the submissions were strict,
what was refused in between, or whether the payload store refused bodies. -/
theorem everything_stored_is_valid (draw : Nat → ArtefactId) (notes : ε) (turns : List (Turn ε))
    {id : ArtefactId} {x : Artefact}
    (hx : (c.service.serve (.start .empty draw notes) turns).ledger.get? id = some x) :
    c.service.Valid (c.service.serve (.start .empty draw notes) turns).payloads x ∧
    ∃ sub, c.service.ComesFrom (.start .empty draw notes) turns sub x ∧
      c.authorizer.allows sub.identity x.envelope.listType = true := by
  obtain ⟨⟨blobs, hhoused⟩, hcomes⟩ := serve_housed (c := c) draw notes turns
  obtain ⟨sub, hsub⟩ := hcomes hx
  have ⟨earlier, later, p, _, hp, hsame⟩ := hsub
  obtain ⟨hallows, haccept, -⟩ := vets_of_vet (accepted_of_submit hp)
  rw [← hsame.envelope] at hallows haccept
  obtain ⟨hprovenance, hlocation, -, -, -, -, -, -, hwindow⟩ :=
    EnvelopePolicy.accept_eq_ok_iff.mp haccept
  refine ⟨⟨EnvelopePolicy.le_of_window hwindow, EnvelopePolicy.trimmed_of_nonBlank hprovenance,
    EnvelopePolicy.trimmed_of_nonBlank hlocation, ?_⟩, sub, hsub, hallows⟩
  rw [hhoused.memory]
  exact (hhoused.kept hx).fetch hhoused.valid

/-! Two lists of one key, then a sweep: the first is superseded and the second has expired, and the
first is still there to be read. -/

namespace Example

open Setup.Example (submitted later)

def setup : Setup Unit :=
  ⟨Setup.Example.registry, Settings.default, .everyone, fun _ _ _ => none⟩

def turns : List (Turn Unit) :=
  [.submission ⟨"press", [123, 125], submitted, false, .epoch⟩,
    .submission ⟨"press", [91, 48, 93], submitted, true, .epoch⟩, .sweep later]

def archive : Archive Unit := setup.service.serve (.start .empty .ofRandom ()) turns

end Example

theorem a_superseded_list_is_still_valid : ∃ x, Example.archive.ledger.get? (.ofRandom 0) = some x ∧
    x.state = .superseded ∧ Example.setup.service.Valid Example.archive.payloads x := by
  have hstate :
      (Example.archive.ledger.get? (.ofRandom 0)).map Artefact.state = some .superseded := by
    decide +kernel
  obtain ⟨x, hx, hsuperseded⟩ := Option.map_eq_some_iff.mp hstate
  exact ⟨x, hx, hsuperseded, (everything_stored_is_valid .ofRandom () Example.turns hx).1⟩

end Service

end CauseLists
