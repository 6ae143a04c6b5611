-- Files that are submitted one after another under one envelope. Whichever of them pass, those that
-- do make one chain, in the order of the files: each takes the place of the one before it if the
-- display window is still open when it comes, and otherwise finds that one expired.
import CauseLists.Bundled.Libraries
import CauseLists.CommandLine.Run
import CauseLists.Proofs.Publication.Stages
import CauseLists.Proofs.Supersession.Growth
import CauseLists.Proofs.Text.Utf8

namespace CauseLists

/-- A file that was submitted: its bytes, the instant when they had been read, and the answer. -/
structure SubmittedFile where
  file : String
  body : Bytes
  time : Instant
  answer : Except PublicationError Published

namespace SubmittedFile

def isAccepted (x : SubmittedFile) : Bool :=
  match x.answer with
  | .ok _ => true
  | .error _ => false

/-- What is printed for a submission. -/
def text (x : SubmittedFile) : String := (ingestVerdict x.file x.answer).1

/-- The key of what was published. -/
def key? (x : SubmittedFile) : Option IdentityKey :=
  match x.answer with
  | .ok p => some p.artefact.key
  | .error _ => none

end SubmittedFile

/-- Files are submitted one after another. Each of them can be read when its turn comes, and the
payload store keeps the body if it is asked to. `count` is the number of files before. -/
inductive Service.Submits {ε : Type} (service : Service ε) (s : Surroundings)
    (request : IngestRequest) (e : SubmittedEnvelope) :
    (count : Nat) → Archive ε → List SubmittedFile → Archive ε → Prop
  | none (count : Nat) (a : Archive ε) : Submits service s request e count a [] a
  | next {count : Nat} {a b last : Archive ε} {file : String} {body : Bytes}
    {answer : Except PublicationError Published} {rest : List SubmittedFile}
    (hread : (a.disk s.disk).read file = .ok body)
    (hkeeps : ∀ envelope, service.vet request.identity body e request.strict = .ok envelope →
      ∃ stored payloads, a.payloads.persist envelope body = (.ok stored, payloads))
    (hingest : service.ingest a request.identity body e request.strict (s.clock count) =
      (answer, b))
    (hrest : Submits service s request e (count + 1) b rest last) :
    Submits service s request e count a (⟨file, body, s.clock count, answer⟩ :: rest) last

/-! ## Chains -/

/-- An accepted submission made an artefact, of which the history of its key has the record. -/
structure SubmittedFile.Made (envelope : Envelope) (x : SubmittedFile) (p : Published)
    (a : Artefact) : Prop where
  answer : x.answer = .ok p
  record : p.artefact.SameRecord a
  decision : p.decision.prior = a.supersedes
  envelope : a.envelope = envelope
  digest : a.body.digest = .ofBody x.body
  size : a.body.size = x.body.length
  received : a.receivedAt = x.time

/-- An artefact came next in a chain: it superseded the one before if the display window had not
ended when it came, and otherwise that one had expired and it replaced none. -/
inductive Artefact.Follows (envelope : Envelope) (a b : Artefact) : Prop
  | superseded (hopen : b.receivedAt ≤ envelope.displayTo) (hstate : a.state = .superseded)
    (hby : a.supersededBy = some b.id) (hof : b.supersedes = some a.id)
  | expired (hended : envelope.displayTo < b.receivedAt) (hstate : a.state = .expired)
    (hby : a.supersededBy = none) (hof : b.supersedes = none)

/-- The history of the key of an envelope is one chain of what was accepted. -/
structure Ledger.ChainOf (l : Ledger) (envelope : Envelope) (accepted : List SubmittedFile) :
    Prop where
  made : List.Forall₂ (fun x a => ∃ p, x.Made envelope p a) accepted (l.history envelope.key)
  numbered : (l.history envelope.key).map Artefact.sequence = List.range' 1 accepted.length
  linked : (l.history envelope.key).IsChain (Artefact.Follows envelope)
  first : ∀ a, (l.history envelope.key).head? = some a → a.supersedes = none
  last : ∀ a, (l.history envelope.key).getLast? = some a → a.state = .current

/-- The first of a row of artefacts replaced none, and each of the others replaced one exactly if
the display window had not ended when it came. -/
def Ledger.Replacing (envelope : Envelope) : List Artefact → Prop
  | [] => True
  | a :: rest => a.supersedes = none ∧
    ∀ b ∈ rest, b.supersedes ≠ none ↔ b.receivedAt ≤ envelope.displayTo

/-- An archive in which nobody holds a lock has a chain of what was accepted so far, and nothing
else. -/
structure Archive.Grown {ε : Type} (a : Archive ε) (draw : Nat → ArtefactId) (envelope : Envelope)
    (accepted : List SubmittedFile) : Prop extends Archive.Quiet a where
  made : List.Forall₂ (fun x a => ∃ p, x.Made envelope p a) accepted
    (a.ledger.history envelope.key)
  numbered : (a.ledger.history envelope.key).map Artefact.sequence =
    List.range' 1 accepted.length
  count : a.ledger.lastSequence = accepted.length
  supply : a.ids = ⟨draw, accepted.length⟩
  replacing : Ledger.Replacing envelope (a.ledger.history envelope.key)
  current : a.ledger.currentFor envelope.key = (a.ledger.history envelope.key).getLast?

/-! ## Records -/

theorem SubmittedFile.Made.same {envelope : Envelope} {x : SubmittedFile} {p : Published}
    {a b : Artefact} (h : x.Made envelope p a) (hsame : a.SameRecord b) : x.Made envelope p b where
  answer := h.answer
  record := h.record.trans hsame
  decision := h.decision.trans hsame.supersedes.symm
  envelope := hsame.envelope.trans h.envelope
  digest := by rw [hsame.body, h.digest]
  size := by rw [hsame.body, h.size]
  received := hsame.receivedAt.trans h.received

theorem made_of_forall₂ {envelope : Envelope} {accepted : List SubmittedFile}
    {before after : List Artefact}
    (hmade : List.Forall₂ (fun x a => ∃ p, x.Made envelope p a) accepted before)
    (hsame : List.Forall₂ Artefact.SameRecord before after) :
    List.Forall₂ (fun x a => ∃ p, x.Made envelope p a) accepted after := by
  induction hmade generalizing after with
  | nil =>
    cases hsame
    exact .nil
  | cons hx _ ih =>
    cases hsame with
    | cons hb hrest =>
      obtain ⟨p, hp⟩ := hx
      exact .cons ⟨p, hp.same hb⟩ (ih hrest)

theorem sequences_of_forall₂ {before after : List Artefact}
    (hsame : List.Forall₂ Artefact.SameRecord before after) :
    after.map Artefact.sequence = before.map Artefact.sequence := by
  induction hsame with
  | nil => rfl
  | cons hb _ ih => rw [List.map_cons, List.map_cons, hb.sequence, ih]

theorem Ledger.Replacing.later {envelope : Envelope} {row : List Artefact}
    (h : Replacing envelope row) :
    ∀ b ∈ row.tail, b.supersedes ≠ none ↔ b.receivedAt ≤ envelope.displayTo := by
  cases row with
  | nil => exact fun b hb => by cases hb
  | cons a rest => exact h.2

/-- One more artefact at the end of a row. -/
theorem Ledger.Replacing.longer {envelope : Envelope} {before after : List Artefact} {b : Artefact}
    (h : Replacing envelope before) (hsame : List.Forall₂ Artefact.SameRecord before after)
    (hfirst : before = [] → b.supersedes = none)
    (hlater : before ≠ [] → (b.supersedes ≠ none ↔ b.receivedAt ≤ envelope.displayTo)) :
    Replacing envelope (after ++ [b]) := by
  cases hsame with
  | nil => exact ⟨hfirst rfl, by simp⟩
  | cons hold hrest =>
    obtain ⟨hnone, hothers⟩ := h
    refine ⟨hold.supersedes.trans hnone, ?_⟩
    intro y hy
    rcases List.mem_append.mp hy with hy | hy
    · obtain ⟨z, hz, hzy⟩ := exists_of_mem_right hrest hy
      rw [hzy.supersedes, hzy.receivedAt]
      exact hothers z hz
    · rw [List.mem_singleton.mp hy]
      exact hlater (by simp)

/-! ## One commit -/

namespace Archive.Grown

variable {ε : Type} {a b : Archive ε} {draw : Nat → ArtefactId} {envelope : Envelope}
  {accepted : List SubmittedFile}

theorem start (payloads : PayloadStore) (draw : Nat → ArtefactId) (notes : ε)
    (envelope : Envelope) : (Archive.start payloads draw notes).Grown draw envelope [] where
  toQuiet := quiet_start payloads draw notes
  made := .nil
  numbered := rfl
  count := rfl
  supply := rfl
  replacing := trivial
  current := rfl

/-- The artefact that is current under the key has the envelope of the chain. -/
theorem envelope_of_current (h : a.Grown draw envelope accepted) {p : Artefact}
    (hp : a.ledger.currentFor envelope.key = some p) : p.envelope = envelope := by
  rw [h.current] at hp
  obtain ⟨x, -, q, hq⟩ := exists_of_mem_right h.made (List.mem_of_getLast? hp)
  exact hq.envelope

/-- A commit that was carried out for an accepted submission makes the chain longer by it. -/
theorem commit (h : a.Grown draw envelope accepted) (hb : b.Quiet) (hids : b.ids = a.ids.next.2)
    {x : SubmittedFile} {c : Committed} (hanswer : x.answer = .ok ⟨c.artefact, c.decision, 1⟩)
    (htakes : a.ledger.Takes envelope x.body x.time c b.ledger)
    (hgrows : a.ledger.Grows envelope x.time c.artefact b.ledger) :
    b.Grown draw envelope (accepted ++ [x]) := by
  obtain ⟨older, hhistory, hsame⟩ := hgrows.history
  -- What is current is the last of the chain, so the new artefact replaces that one or none.
  have hfirst : a.ledger.history envelope.key = [] → c.artefact.supersedes = none := by
    intro hempty
    rw [htakes.link, htakes.createsNew.mpr]
    · rfl
    · intro p hp
      rw [h.current, hempty] at hp
      cases hp
  have hlater : a.ledger.history envelope.key ≠ [] →
      (c.artefact.supersedes ≠ none ↔ c.artefact.receivedAt ≤ envelope.displayTo) := by
    intro hnonempty
    have hp := List.getLast?_eq_some_getLast hnonempty
    generalize (a.ledger.history envelope.key).getLast hnonempty = p at hp
    rw [← h.current] at hp
    have hsent := h.envelope_of_current hp
    rw [htakes.link, hgrows.received]
    constructor
    · intro hsome
      cases hdecision : c.decision with
      | createNew => simp [hdecision, Decision.prior] at hsome
      | supersede id =>
        obtain ⟨p', hp', hopen, -⟩ := (htakes.supersedes id).mp hdecision
        rwa [h.envelope_of_current hp'] at hopen
    · intro hopen
      rw [(htakes.supersedes p.id).mpr ⟨p, hp, hsent ▸ hopen, rfl⟩]
      simp [Decision.prior]
  constructor
  case toQuiet => exact hb
  case made =>
    rw [hhistory]
    have hmade : x.Made envelope ⟨c.artefact, c.decision, 1⟩ c.artefact := {
      answer := hanswer
      record := .refl _
      decision := htakes.link.symm
      envelope := htakes.sent
      digest := htakes.digest
      size := htakes.size
      received := hgrows.received }
    exact List.rel_append (made_of_forall₂ h.made hsame) (.cons ⟨_, hmade⟩ .nil)
  case numbered =>
    rw [hhistory, List.map_append, sequences_of_forall₂ hsame, h.numbered, List.map_singleton,
      hgrows.sequence, h.count, List.length_append, List.length_singleton, List.range'_concat]
    simp [Nat.add_comm]
  case count => rw [hgrows.count, h.count, List.length_append, List.length_singleton]
  case supply =>
    rw [hids, h.supply, List.length_append]
    rfl
  case replacing =>
    rw [hhistory]
    exact h.replacing.longer hsame hfirst hlater
  case current =>
    rw [hhistory, List.getLast?_concat]
    exact htakes.current

/-- What has grown is a chain. -/
theorem chainOf (h : a.Grown draw envelope accepted) : a.ledger.ChainOf envelope accepted where
  made := h.made
  numbered := h.numbered
  linked := by
    refine (h.ledger.linked envelope.key).imp_of_mem_tail_imp ?_
    intro x y _ hy hprecedes
    have hlater := h.replacing.later y hy
    rcases hprecedes with ⟨hstate, hby, hof⟩ | ⟨hstate, hby, hof⟩
    · exact .superseded (hlater.mp (by simp [hof])) hstate hby hof
    · refine .expired (Int.not_le.mp ?_) hstate hby hof
      exact fun hopen => hlater.mpr hopen hof
  first := by
    have hreplacing := h.replacing
    intro x hx
    obtain ⟨rest, hrest⟩ := List.head?_eq_some_iff.mp hx
    rw [hrest] at hreplacing
    exact hreplacing.1
  last := by
    intro x hx
    rw [← h.current] at hx
    exact (h.ledger.currentFor_eq_some hx).2.2.2

end Archive.Grown

/-! ## One submission -/

namespace Service

variable {ε : Type} {service : Service ε}

theorem publish_of_commit {a b : Archive ε} {envelope : Envelope} {body : Bytes} {now : Instant}
    {c : Committed} (h : service.engine.commit a envelope body now = (.ok c, b)) :
    service.publish a envelope body now = (.ok ⟨c.artefact, c.decision, 1⟩, b) := by
  simp [publish, RetryPolicy.run, RetryPolicy.tryFrom, h]

/-- The list type of an accepted envelope is the one that was named. -/
theorem listType_of_accept {p : EnvelopePolicy} {e : SubmittedEnvelope} {t : ListType}
    {envelope : Envelope} (hnamed : e.named = some t) (haccept : p.accept e = .ok envelope) :
    envelope.listType = t := by
  obtain ⟨-, -, -, -, -, -, -, hlist, -⟩ := EnvelopePolicy.accept_eq_ok_iff.mp haccept
  obtain ⟨raw, hraw, hparse⟩ := EnvelopePolicy.listType_eq_ok_iff.mp hlist
  rw [SubmittedEnvelope.named, hraw, Option.bind_some, hparse] at hnamed
  exact Option.some.inj hnamed

/-- If everyone may publish and the list type is registered, then only what was submitted can be at
fault. -/
theorem content_of_vet_error (hauthorizer : service.authorizer = .everyone) {identity : String}
    {body : Bytes} {e : SubmittedEnvelope} {strict : Bool} {t : ListType} {rules : RuleSet}
    (hnamed : e.named = some t) (hregistered : service.registry.get? t = some rules)
    {err : PublicationError} (h : service.vet identity body e strict = .error err) :
    err.isContentRejection = true := by
  simp only [vet, bind_eq_error_iff, mapError_eq_error_iff] at h
  rcases h with h | ⟨⟨⟩, -, h⟩
  · rw [authorize_of_named hnamed, hauthorizer] at h
    cases h
  · rcases h with ⟨report, -, rfl⟩ | ⟨accepted, haccept, h⟩
    · rfl
    · rw [mapError_eq_ok_iff] at haccept
      rcases h with ⟨error, herror, -⟩ | ⟨rules, -, h⟩
      · rw [Registry.rulesFor, listType_of_accept hnamed haccept, hregistered] at herror
        cases herror
      · rcases h with ⟨report, -, rfl⟩ | ⟨document, -, h⟩
        · rfl
        · cases h

end Service

/-! ## Files one after another -/

section

variable {ε : Type} {service : Service ε} {s : Surroundings} {request : IngestRequest}
  {e : SubmittedEnvelope}

theorem IdSupply.Distinct.fewer {draw : Nat → ArtefactId} {n m : Nat}
    (h : (IdSupply.mk draw m).Distinct) (hle : n ≤ m) : (IdSupply.mk draw n).Distinct := by
  have hcontinues : (IdSupply.mk draw n).Continues ⟨draw, m⟩ := ⟨rfl, hle⟩
  exact hcontinues.distinct h

/-- A submission that passes is accepted and makes the chain longer, if its body is kept. -/
theorem Archive.Grown.ingest {a : Archive ε} {draw : Nat → ArtefactId} {envelope : Envelope}
    {accepted : List SubmittedFile} {timeout : Nat} (hstores : service.engine = ⟨.direct, timeout⟩)
    (h : a.Grown draw envelope accepted)
    (hids : (IdSupply.mk draw (accepted.length + 1)).Distinct) {identity : String} {body : Bytes}
    {strict : Bool} (hvet : service.vet identity body e strict = .ok envelope)
    {stored : StoredBody} {payloads : PayloadStore}
    (hkept : a.payloads.persist envelope body = (.ok stored, payloads)) (file : String)
    (now : Instant) :
    ∃ p b, service.ingest a identity body e strict now = (.ok p, b) ∧ b.payloads = payloads ∧
      b.Grown draw envelope (accepted ++ [⟨file, body, now, .ok p⟩]) := by
  have hnext : a.ids.next.2.Distinct := by
    rw [h.supply]
    exact hids
  obtain ⟨c, b, hcommit, hquiet, hdrawn, hpayloads, htakes, hgrows⟩ :=
    h.toQuiet.commits hnext hkept timeout now
  have hpublish : service.publish a envelope body now = (.ok ⟨c.artefact, c.decision, 1⟩, b) :=
    Service.publish_of_commit (by rw [hstores]; exact hcommit)
  refine ⟨⟨c.artefact, c.decision, 1⟩, b, ?_, hpayloads,
    h.commit hquiet hdrawn rfl htakes hgrows⟩
  rw [Service.ingest, hvet]
  exact hpublish

/-- Whatever was submitted, what was accepted is a chain then; it is all that has passed, and only
content was rejected. -/
theorem Service.Submits.grown {t : ListType} {rules : RuleSet} {timeout : Nat}
    (hauthorizer : service.authorizer = .everyone) (hstores : service.engine = ⟨.direct, timeout⟩)
    (hnamed : e.named = some t) (hregistered : service.registry.get? t = some rules)
    {draw : Nat → ArtefactId} {count : Nat} {a last : Archive ε} {subs : List SubmittedFile}
    (h : service.Submits s request e count a subs last) {accepted : List SubmittedFile}
    (hids : (IdSupply.mk draw (accepted.length + subs.length)).Distinct)
    (hgrown : ∀ envelope, service.policy.accept e = .ok envelope → a.Grown draw envelope accepted) :
    (∀ envelope, service.policy.accept e = .ok envelope →
      last.Grown draw envelope (accepted ++ subs.filter SubmittedFile.isAccepted)) ∧
    ∀ x ∈ subs, (x.isAccepted = true ↔
        ∃ envelope, service.vet request.identity x.body e request.strict = .ok envelope) ∧
      ∀ err, x.answer = .error err → err.isContentRejection = true := by
  induction h generalizing accepted with
  | none count a => exact ⟨by simpa using hgrown, by simp⟩
  | @next count a b last file body answer rest hread hkeeps hingest hrest ih =>
    cases hvet : service.vet request.identity body e request.strict with
    | error err =>
      rw [Service.ingest, hvet] at hingest
      obtain ⟨rfl, rfl⟩ := Prod.mk.inj hingest
      have hshorter := hids.fewer (show accepted.length + rest.length ≤ _ by simp)
      obtain ⟨hlast, hothers⟩ := ih hshorter hgrown
      refine ⟨hlast, List.forall_mem_cons.mpr ⟨⟨?_, ?_⟩, hothers⟩⟩
      · simp [SubmittedFile.isAccepted, hvet]
      · rintro _ ⟨⟩
        exact content_of_vet_error hauthorizer hnamed hregistered hvet
    | ok envelope =>
      obtain ⟨-, haccept, -⟩ := vet_eq_ok_iff.mp hvet
      obtain ⟨stored, payloads, hkept⟩ := hkeeps envelope hvet
      have hnext := hids.fewer (show accepted.length + 1 ≤ _ by simp)
      obtain ⟨p, b', hgoes, -, hmore⟩ :=
        (hgrown envelope haccept).ingest hstores hnext hvet hkept file (s.clock count)
      obtain ⟨rfl, rfl⟩ := Prod.mk.inj (hgoes.symm.trans hingest)
      have hlonger := hids.fewer (show
        (accepted ++ [(⟨file, body, s.clock count, .ok p⟩ : SubmittedFile)]).length +
          rest.length ≤ _ by
          simp
          omega)
      obtain ⟨hlast, hothers⟩ := ih hlonger (by
        intro envelope' haccept'
        obtain rfl := Except.ok.inj (haccept.symm.trans haccept')
        exact hmore)
      refine ⟨?_, List.forall_mem_cons.mpr ⟨⟨?_, ?_⟩, hothers⟩⟩
      · intro envelope' haccept'
        have hfinal := hlast envelope' haccept'
        rw [List.append_assoc, List.singleton_append] at hfinal
        exact hfinal
      · simp [SubmittedFile.isAccepted, hvet]
      · rintro _ ⟨⟩

/-- Bodies that are kept in memory are all kept, and leave the files as they are. -/
theorem Service.exists_submits {timeout : Nat} (hstores : service.engine = ⟨.direct, timeout⟩)
    {draw : Nat → ArtefactId} {files : List String}
    (hreads : ∀ file ∈ files, ∃ body, s.disk.read file = .ok body) {a : Archive ε}
    (hmemory : ∃ blobs, a.payloads = .memory blobs) {accepted : List SubmittedFile}
    (hids : (IdSupply.mk draw (accepted.length + files.length)).Distinct)
    (hgrown : ∀ envelope, service.policy.accept e = .ok envelope → a.Grown draw envelope accepted)
    (count : Nat) :
    ∃ subs last, service.Submits s request e count a subs last ∧
      subs.map SubmittedFile.file = files ∧ ∀ x ∈ subs, s.disk.read x.file = .ok x.body := by
  induction files generalizing a accepted count with
  | nil => exact ⟨[], a, .none count a, rfl, by simp⟩
  | cons file rest ih =>
    obtain ⟨⟨body, hbody⟩, hrest⟩ := List.forall_mem_cons.mp hreads
    obtain ⟨blobs, hblobs⟩ := hmemory
    have hread : (a.disk s.disk).read file = .ok body := by
      rw [Archive.disk, hblobs]
      exact hbody
    have hkept : ∀ envelope, a.payloads.persist envelope body =
        (.ok (blobs.persist envelope.listType body).1,
          .memory (blobs.persist envelope.listType body).2) := by
      intro envelope
      rw [hblobs]
      rfl
    have hkeeps : ∀ envelope, service.vet request.identity body e request.strict = .ok envelope →
        ∃ stored payloads, a.payloads.persist envelope body = (.ok stored, payloads) :=
      fun envelope _ => ⟨_, _, hkept envelope⟩
    cases hvet : service.vet request.identity body e request.strict with
    | error err =>
      have hingest : service.ingest a request.identity body e request.strict (s.clock count) =
          (.error err, a) := by rw [Service.ingest, hvet]
      have hshorter := hids.fewer (show accepted.length + rest.length ≤ _ by simp)
      obtain ⟨subs, last, hsubmits, hfiles, hbodies⟩ :=
        ih hrest ⟨blobs, hblobs⟩ hshorter hgrown (count + 1)
      exact ⟨_ :: subs, last, .next hread hkeeps hingest hsubmits, by simp [hfiles],
        List.forall_mem_cons.mpr ⟨hbody, hbodies⟩⟩
    | ok envelope =>
      obtain ⟨-, haccept, -⟩ := vet_eq_ok_iff.mp hvet
      have hnext := hids.fewer (show accepted.length + 1 ≤ _ by simp)
      obtain ⟨p, b, hingest, hpayloads, hmore⟩ :=
        (hgrown envelope haccept).ingest hstores hnext hvet (hkept envelope) file (s.clock count)
      have hlonger := hids.fewer (show
        (accepted ++ [(⟨file, body, s.clock count, .ok p⟩ : SubmittedFile)]).length +
          rest.length ≤ _ by
          simp
          omega)
      obtain ⟨subs, last, hsubmits, hfiles, hbodies⟩ := ih hrest ⟨_, hpayloads⟩ hlonger (by
        intro envelope' haccept'
        obtain rfl := Except.ok.inj (haccept.symm.trans haccept')
        exact hmore) (count + 1)
      exact ⟨_ :: subs, last, .next hread hkeeps hingest hsubmits, by simp [hfiles],
        List.forall_mem_cons.mpr ⟨hbody, hbodies⟩⟩

/-! ## The command -/

theorem Disk.readText_of_read {d : Disk} {path text : String}
    (h : d.read path = .ok (Text.encode text)) : d.readText path = .ok text := by
  simp only [readText, h, Text.decode_encode]

/-- The text of an envelope was written under a path. -/
theorem readEnvelope_of_read {l : Libraries} {d : Disk} {path text : String}
    {e : SubmittedEnvelope} (hread : d.read path = .ok (Text.encode text))
    (hparse : SubmittedEnvelope.parse? l text = some e) : readEnvelope l d path = .ok e := by
  simp only [readEnvelope, Disk.readText_of_read hread, hparse]

theorem ingestVerdict_of_content {err : PublicationError} (h : err.isContentRejection = true)
    (file : String) :
    ingestVerdict file (.error err) = ((ingestVerdict file (.error err)).1, .refused) := by
  cases err <;> first | rfl | cases h

/-- The command goes through all files, and shows the chain of the last that was accepted. -/
theorem ingestFiles_of_submits {count : Nat} {a last : Archive ε} {subs : List SubmittedFile}
    (h : service.Submits s request e count a subs last)
    (hcontent : ∀ x ∈ subs, ∀ err, x.answer = .error err → err.isContentRejection = true)
    (passed : Bool) (shown : Option IdentityKey) :
    ingestFiles service s request e count passed shown a (subs.map SubmittedFile.file) =
      ⟨String.join (subs.map SubmittedFile.text) ++
        ((shown.toList ++ subs.filterMap SubmittedFile.key?).getLast?.elim ""
          last.ledger.chainText),
        .ok (passed && subs.all SubmittedFile.isAccepted), last.disk s.disk⟩ := by
  induction h generalizing passed shown with
  | none count a => cases shown <;> simp [ingestFiles]
  | @next count a b last file body answer rest hread hkeeps hingest hrest ih =>
    obtain ⟨hfirst, hothers⟩ := List.forall_mem_cons.mp hcontent
    rw [List.map_cons, ingestFiles]
    dsimp only
    rw [hread]
    dsimp only
    rw [hingest]
    cases answer with
    | error err =>
      rw [ingestVerdict_of_content (hfirst err rfl)]
      dsimp only
      rw [ih hothers]
      simp [Outcome.after, SubmittedFile.text, SubmittedFile.key?, SubmittedFile.isAccepted,
        String.append_assoc]
    | ok p =>
      dsimp only [ingestVerdict]
      rw [ih hothers]
      -- Of the keys before only the last would have been shown, and now it is not.
      simp [Outcome.after, SubmittedFile.text, SubmittedFile.key?, SubmittedFile.isAccepted,
        ingestVerdict, String.append_assoc, List.getLast?_cons]

end

theorem lastKey_of_forall {key : IdentityKey} {subs : List SubmittedFile}
    (h : ∀ x ∈ subs, ∀ p, x.answer = .ok p → p.artefact.key = key) :
    (subs.filterMap SubmittedFile.key?).getLast? =
      if subs.any SubmittedFile.isAccepted then some key else none := by
  induction subs with
  | nil => rfl
  | cons x rest ih =>
    obtain ⟨hx, hrest⟩ := List.forall_mem_cons.mp h
    cases hanswer : x.answer with
    | error err => simpa [SubmittedFile.key?, SubmittedFile.isAccepted, hanswer] using ih hrest
    | ok p =>
      have hkey := hx p hanswer
      simp only [SubmittedFile.key?, SubmittedFile.isAccepted, hanswer, List.filterMap_cons,
        List.getLast?_cons, ih hrest, hkey, List.any_cons, Bool.true_or, if_true]
      split <;> rfl

/-- Files are submitted under one envelope whose list type is registered, by anyone, and each can be
read and its body kept when its turn comes. Then the command does not fail: its exit code is 0 if
every file was accepted and 1 otherwise, and a file is accepted exactly if it passes. What was
accepted makes one chain, which is shown at the end if there is any of it. -/
theorem files_build_one_chain {s : Surroundings} {settings : Settings} {registry : Registry}
    {request : IngestRequest} {e : SubmittedEnvelope} {t : ListType} {rules : RuleSet}
    {subs : List SubmittedFile} {last : Archive Unit}
    (henvelope : readEnvelope s.libraries s.disk request.envelopeFile = .ok e)
    (hnamed : e.named = some t)
    (hregistered : registry.get? t = some rules)
    (hdraw : (IdSupply.mk s.draw request.files.length).Distinct)
    (hfiles : request.files = subs.map SubmittedFile.file)
    (hsubmits : (Service.ofSettings registry settings .everyone Stores.direct).Submits s request e 0
      (Archive.start (request.payloads s.disk) s.draw ()) subs last) :
    (runIngest s settings registry request).exitCode =
      (if ∀ x ∈ subs, x.isAccepted = true then 0 else 1) ∧
    (∀ x ∈ subs, x.isAccepted = true ↔ ∃ envelope,
      (Service.ofSettings registry settings .everyone (Stores.direct : Stores Unit)).vet
        request.identity x.body e request.strict = .ok envelope) ∧
    ∀ envelope, settings.policy.accept e = .ok envelope →
      last.ledger.ChainOf envelope (subs.filter SubmittedFile.isAccepted) ∧
      (runIngest s settings registry request).printed = String.join (subs.map SubmittedFile.text) ++
        if subs.any SubmittedFile.isAccepted then last.ledger.chainText envelope.key else "" := by
  have hids : (IdSupply.mk s.draw (([] : List SubmittedFile).length + subs.length)).Distinct := by
    rw [hfiles, List.length_map] at hdraw
    simpa using hdraw
  obtain ⟨hlast, hanswers⟩ := hsubmits.grown rfl rfl hnamed hregistered hids
    (fun envelope _ => Archive.Grown.start _ _ _ envelope)
  have hrun := ingestFiles_of_submits hsubmits (fun x hx => (hanswers x hx).2) true none
  rw [← hfiles] at hrun
  have houtcome : runIngest s settings registry request =
      ⟨String.join (subs.map SubmittedFile.text) ++
        ((subs.filterMap SubmittedFile.key?).getLast?.elim "" last.ledger.chainText),
        .ok (subs.all SubmittedFile.isAccepted), last.disk s.disk⟩ := by
    rw [runIngest, henvelope]
    exact hrun
  refine ⟨?_, fun x hx => (hanswers x hx).1, ?_⟩
  · rw [houtcome]
    simp only [Outcome.exitCode, ← List.all_eq_true]
    cases subs.all SubmittedFile.isAccepted <;> rfl
  · intro envelope haccept
    have hchain := (hlast envelope haccept).chainOf
    refine ⟨hchain, ?_⟩
    have hkeys : ∀ x ∈ subs, ∀ p, x.answer = .ok p → p.artefact.key = envelope.key := by
      intro x hx p hanswer
      have hmem : x ∈ subs.filter SubmittedFile.isAccepted :=
        List.mem_filter.mpr ⟨hx, by simp [SubmittedFile.isAccepted, hanswer]⟩
      have hmade : List.Forall₂ (fun a x => ∃ p, x.Made envelope p a)
          (last.ledger.history envelope.key) (subs.filter SubmittedFile.isAccepted) :=
        hchain.made.flip
      obtain ⟨a, -, q, hq⟩ := exists_of_mem_right hmade hmem
      obtain rfl := Except.ok.inj (hanswer.symm.trans hq.answer)
      exact congrArg Envelope.key (hq.record.envelope.symm.trans hq.envelope)
    rw [houtcome, lastKey_of_forall hkeys]
    dsimp only
    split <;> rfl

/-! Three files, of which the second is no document. -/

namespace SubmittedFile.Example

def envelopeText : String := inLines [
  "provenance: COMMON_PLATFORM", "sourceArtefactId: id1", "type: LIST", "sensitivity: PUBLIC",
  "language: ENGLISH", "displayFrom: 1970-01-01T00:00:00Z", "displayTo: 1970-01-01T00:00:00Z",
  "listType: DAILY_LIST", "locationId: id7", "contentDate: 1970-01-01T00:00:00Z"]

def submitted : SubmittedEnvelope := { Setup.Example.submitted with location := some "id7" }

def request : IngestRequest where
  envelopeFile := "envelope.yaml"
  identity := "press"
  strict := false
  storeFolder := none
  files := ["first.json", "second.json", "third.json"]

/-- The display of the envelope ends between the first file and the third. -/
def surroundings : Surroundings where
  libraries := Bundled.libraries
  disk := ⟨[(["envelope.yaml"], .file (Text.encode envelopeText)),
    (["first.json"], .file [123, 125]), (["second.json"], .file [33]),
    (["third.json"], .file [123, 32, 125])], []⟩
  environment := fun _ => none
  clock := fun n => if n = 2 then Setup.Example.later else .epoch
  draw := .ofRandom

def service : Service Unit :=
  .ofSettings Setup.Example.registry .default .everyone .direct

/-- A body passes under the envelope. -/
def passes (body : Bytes) : Bool :=
  (service.vet request.identity body submitted request.strict).toOption.isSome

theorem passes_iff {body : Bytes} : passes body = true ↔ ∃ envelope,
    service.vet request.identity body submitted request.strict = .ok envelope := by
  rw [passes]
  cases service.vet request.identity body submitted request.strict <;> simp [Except.toOption]

end SubmittedFile.Example

open SubmittedFile.Example in
theorem a_file_that_is_no_document_is_left_out :
    ∃ subs last, List.map SubmittedFile.file subs = request.files ∧
      (runIngest surroundings .default Setup.Example.registry request).exitCode = 1 ∧
      (subs.filter SubmittedFile.isAccepted).map SubmittedFile.file = ["first.json", "third.json"] ∧
      ∃ envelope, Settings.default.policy.accept submitted = .ok envelope ∧
        Ledger.ChainOf last envelope (subs.filter SubmittedFile.isAccepted) := by
  have henvelope :
      readEnvelope surroundings.libraries surroundings.disk request.envelopeFile =
        .ok submitted := by
    have hparse : SubmittedEnvelope.parse? Bundled.libraries envelopeText = some submitted := by
      decide +kernel
    exact readEnvelope_of_read rfl hparse
  have hnamed : submitted.named = some Service.Example.daily := by decide +kernel
  have hdraw : (IdSupply.mk surroundings.draw request.files.length).Distinct := by
    intro i j hij hj
    have hthree : j < 3 := hj
    obtain ⟨rfl, rfl⟩ | ⟨rfl, rfl⟩ | ⟨rfl, rfl⟩ :
        (i = 0 ∧ j = 1) ∨ (i = 0 ∧ j = 2) ∨ (i = 1 ∧ j = 2) := by omega
    all_goals decide +kernel
  have hfirst : surroundings.disk.read "first.json" = .ok [123, 125] := by decide +kernel
  have hsecond : surroundings.disk.read "second.json" = .ok [33] := by decide +kernel
  have hthird : surroundings.disk.read "third.json" = .ok [123, 32, 125] := by decide +kernel
  obtain ⟨subs, last, hsubmits, hfiles, hbodies⟩ : ∃ subs last,
      service.Submits surroundings request submitted 0
        (Archive.start (request.payloads surroundings.disk) surroundings.draw ()) subs last ∧
      subs.map SubmittedFile.file = request.files ∧
      ∀ x ∈ subs, surroundings.disk.read x.file = .ok x.body :=
    Service.exists_submits rfl
      (List.forall_mem_cons.mpr ⟨⟨_, hfirst⟩, List.forall_mem_cons.mpr ⟨⟨_, hsecond⟩,
        List.forall_mem_singleton.mpr ⟨_, hthird⟩⟩⟩)
      ⟨[], rfl⟩ hdraw (fun envelope _ => Archive.Grown.start _ _ _ envelope) 0
  obtain ⟨hexit, haccepted, hchain⟩ :=
    files_build_one_chain henvelope hnamed rfl hdraw hfiles.symm hsubmits
  -- Which submissions pass is known from their bodies.
  obtain ⟨x, rest, rfl, hx, hfiles'⟩ := List.map_eq_cons_iff.mp hfiles
  obtain ⟨y, rest, rfl, hy, hfiles'⟩ := List.map_eq_cons_iff.mp hfiles'
  obtain ⟨z, rest, rfl, hz, hfiles'⟩ := List.map_eq_cons_iff.mp hfiles'
  obtain rfl := List.map_eq_nil_iff.mp hfiles'
  obtain ⟨hbx, hby, hbz⟩ : x.body = [123, 125] ∧ y.body = [33] ∧ z.body = [123, 32, 125] := by
    have hbx := hbodies x (by simp)
    have hby := hbodies y (by simp)
    have hbz := hbodies z (by simp)
    rw [hx, hfirst] at hbx
    rw [hy, hsecond] at hby
    rw [hz, hthird] at hbz
    exact ⟨(Except.ok.inj hbx).symm, (Except.ok.inj hby).symm, (Except.ok.inj hbz).symm⟩
  have hpx : x.isAccepted = true := by
    rw [haccepted x (by simp), hbx]
    exact passes_iff.mp (by decide +kernel)
  have hpy : y.isAccepted = false := by
    rw [← Bool.not_eq_true, haccepted y (by simp), hby]
    exact passes_iff.not.mp (by decide +kernel)
  have hpz : z.isAccepted = true := by
    rw [haccepted z (by simp), hbz]
    exact passes_iff.mp (by decide +kernel)
  have hkept : [x, y, z].filter SubmittedFile.isAccepted = [x, z] := by
    simp [hpx, hpy, hpz]
  obtain ⟨envelope, hvet⟩ := (haccepted x (by simp)).mp hpx
  obtain ⟨-, haccept, -⟩ := Service.vet_eq_ok_iff.mp hvet
  refine ⟨[x, y, z], last.ledger, hfiles, ?_, ?_, envelope, haccept, (hchain envelope haccept).1⟩
  · rw [hexit, if_neg]
    simp [hpy]
  · rw [hkept, List.map_cons, List.map_cons, hx, hz]
    rfl

end CauseLists
