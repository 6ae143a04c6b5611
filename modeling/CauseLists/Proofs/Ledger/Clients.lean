-- Clients that share a ledger without a lock. Each looks at what is current under a key and commits
-- later in place of what it saw; in between the others do what they like. A commit is carried out
-- exactly if what the client saw is current still, and as no artefact becomes current a second
-- time, that is exactly if nothing has happened under the key since.
import CauseLists.Proofs.Ledger.Replies

namespace CauseLists

/-! ## Shared ledgers -/

/-- What a client sets out to commit under a key, once it has looked what is current there. -/
structure Attempt (κ : Type) where
  client : κ
  id : ArtefactId
  envelope : Envelope
  body : StoredBody
  receivedAt : Instant
  now : Instant
deriving DecidableEq, Repr

namespace Attempt

variable {κ : Type}

def key (t : Attempt κ) : IdentityKey := t.envelope.key

/-- The call of an attempt, in place of what the client saw. -/
def call (t : Attempt κ) (seen : Option ArtefactId) : Ledger.Call :=
  .commit t.id t.envelope t.body t.receivedAt seen t.now

end Attempt

/-- One act of the clients that share a ledger. -/
inductive ClientAct (κ : Type)
  /-- A client looks at what is current under a key. -/
  | look (client : κ) (key : IdentityKey)
  /-- A client commits a new artefact in place of what it saw last under its key. -/
  | commit (attempt : Attempt κ)
  /-- Somebody retires an artefact. -/
  | expire (id : ArtefactId) (now : Instant)
deriving DecidableEq, Repr

/-- A ledger, and what its clients know of it. -/
structure SharedLedger (κ : Type) where
  ledger : Ledger
  /-- What a client saw when it last looked under a key, if it ever did. -/
  seen : κ → IdentityKey → Option (Option ArtefactId)

namespace SharedLedger

variable {κ : Type} [DecidableEq κ]

/-- A ledger without artefacts, at which nobody has looked. -/
def start : SharedLedger κ := ⟨.empty, fun _ _ => none⟩

/-- The call that an act makes. A client that has not looked cannot commit. -/
def call? (s : SharedLedger κ) : ClientAct κ → Option Ledger.Call
  | .look _ _ => none
  | .commit t => (s.seen t.client t.key).map t.call
  | .expire id now => some (.expire id now)

/-- What the clients know after an act. -/
def noted (s : SharedLedger κ) : ClientAct κ → κ → IdentityKey → Option (Option ArtefactId)
  | .look client key => fun c k =>
    if c = client ∧ k = key then some (s.ledger.currentId key) else s.seen c k
  | _ => s.seen

def act (s : SharedLedger κ) (a : ClientAct κ) : SharedLedger κ :=
  ⟨(s.call? a).elim s.ledger s.ledger.call, s.noted a⟩

def after (s : SharedLedger κ) (acts : List (ClientAct κ)) : SharedLedger κ := acts.foldl act s

/-- The calls that some acts make, one after another. -/
def calls : SharedLedger κ → List (ClientAct κ) → List Ledger.Call
  | _, [] => []
  | s, a :: rest => (s.call? a).toList ++ calls (s.act a) rest

/-- The replies that some acts get. -/
def replies (s : SharedLedger κ) (acts : List (ClientAct κ)) : List Reply :=
  Ledger.replies s.ledger (s.calls acts)

/-- No act brings an artefact along that is filed already when the ledger is called. -/
def Fresh (s : SharedLedger κ) (acts : List (ClientAct κ)) : Prop :=
  Ledger.Fresh s.ledger (s.calls acts)

instance (s : SharedLedger κ) (acts : List (ClientAct κ)) : Decidable (s.Fresh acts) :=
  inferInstanceAs (Decidable (Ledger.Fresh _ _))

theorem after_append (s : SharedLedger κ) (acts more : List (ClientAct κ)) :
    s.after (acts ++ more) = (s.after acts).after more := List.foldl_append

theorem calls_append (s : SharedLedger κ) (acts more : List (ClientAct κ)) :
    s.calls (acts ++ more) = s.calls acts ++ (s.after acts).calls more := by
  induction acts generalizing s with
  | nil => rfl
  | cons a rest ih =>
    show (s.call? a).toList ++ (s.act a).calls (rest ++ more) = _
    rw [ih, ← List.append_assoc]
    rfl

/-- The ledger sees the calls of the acts and nothing else. -/
theorem ledger_after (s : SharedLedger κ) (acts : List (ClientAct κ)) :
    (s.after acts).ledger = (s.calls acts).foldl Ledger.call s.ledger := by
  induction acts generalizing s with
  | nil => rfl
  | cons a rest ih =>
    show ((s.act a).after rest).ledger = _
    rw [ih, calls, List.foldl_append, act]
    cases s.call? a <;> rfl

theorem fresh_append (s : SharedLedger κ) (acts more : List (ClientAct κ)) :
    s.Fresh (acts ++ more) ↔ s.Fresh acts ∧ (s.after acts).Fresh more := by
  rw [Fresh, calls_append, Ledger.fresh_append, ← ledger_after]
  rfl

theorem coherent_after {acts : List (ClientAct κ)} (hfresh : start.Fresh acts) :
    (start.after acts).ledger.Coherent := by
  rw [ledger_after]
  exact Ledger.coherent_of_fresh hfresh

/-! ## What happens after a look -/

/-- What a client sees current is current later on exactly if nothing has been changed under its
key since. -/
theorem current_after {s : SharedLedger κ} (h : s.ledger.Coherent) {key : IdentityKey}
    {id : ArtefactId} (hcurrent : s.ledger.currentId key = some id) {since : List (ClientAct κ)}
    (hfresh : s.Fresh since) (h' : (s.after since).ledger.Coherent) :
    (s.after since).ledger.currentId key = some id ↔
      ∀ r ∈ s.replies since, r.changes key = false := by
  rw [h.currentId_eq] at hcurrent
  obtain ⟨a, ha, -⟩ := (h.indexed key id).mp hcurrent
  rw [h'.currentId_eq, ledger_after, h.current_calls hfresh ⟨a, ha⟩]
  exact and_iff_right hcurrent

/-- A client knows what it saw until it looks again. -/
theorem seen_after {client : κ} {key : IdentityKey} {acts : List (ClientAct κ)}
    (hlook : .look client key ∉ acts) (s : SharedLedger κ) :
    (s.after acts).seen client key = s.seen client key := by
  induction acts generalizing s with
  | nil => rfl
  | cons a rest ih =>
    obtain ⟨hfirst, hrest⟩ := not_or.mp (List.mem_cons.not.mp hlook)
    refine (ih hrest (s.act a)).trans ?_
    cases a with
    | look other k =>
      refine if_neg ?_
      rintro ⟨rfl, rfl⟩
      exact hfirst rfl
    | commit t => rfl
    | expire id now => rfl

/-- What becomes of an attempt at a shared ledger, by what the client saw when it looked and by what
the ledger has replied since. -/
structure Compared (s : SharedLedger κ) (t : Attempt κ) (seen : Option ArtefactId)
    (since : List Reply) : Prop where
  /-- The ledger is called for what the client saw. -/
  called : s.call? (.commit t) = some (t.call seen)
  /-- It commits exactly if that is current at the moment of the call. -/
  commits : (∃ a l, (t.call seen).answer s.ledger = (.ok a, l)) ↔ s.ledger.currentId t.key = seen
  /-- If something was current, that is if nothing was carried out under the key since. -/
  undisturbed : seen.isSome → ((∃ a l, (t.call seen).answer s.ledger = (.ok a, l)) ↔
    ∀ r ∈ since, r.changes t.key = false)
  /-- Otherwise it says what is current, and nothing is changed. -/
  refused : ∀ e, ((t.call seen).answer s.ledger).1 = .error e →
    e = .notCurrent t.key seen (s.ledger.currentId t.key) ∧ (s.act (.commit t)).ledger = s.ledger

theorem compared {before since : List (ClientAct κ)} {t : Attempt κ}
    (hfresh : start.Fresh (before ++ .look t.client t.key :: since))
    (hlook : .look t.client t.key ∉ since) :
    Compared (start.after (before ++ .look t.client t.key :: since)) t
      ((start.after before).ledger.currentId t.key)
      ((start.after before).replies (.look t.client t.key :: since)) := by
  obtain ⟨hbefore, hsince⟩ := (fresh_append start before _).mp hfresh
  have hcoherent := coherent_after hfresh
  have hcall : (start.after (before ++ .look t.client t.key :: since)).call? (.commit t) =
      some (t.call ((start.after before).ledger.currentId t.key)) := by
    have hseen := seen_after hlook ((start.after before).act (.look t.client t.key))
    rw [call?, after_append]
    refine (congrArg _ hseen).trans ?_
    simp [act, noted]
  have hcommits := hcoherent.commit_ok_iff
    ⟨.new t.id t.envelope t.body t.receivedAt, (start.after before).ledger.currentId t.key, t.now⟩
  refine ⟨hcall, hcommits, ?_, ?_⟩
  · intro hsome
    obtain ⟨id, hid⟩ := Option.isSome_iff_exists.mp hsome
    refine hcommits.trans ?_
    rw [hid]
    rw [after_append] at hcoherent ⊢
    exact current_after (coherent_after hbefore) hid hsince hcoherent
  · intro e herror
    refine ⟨hcoherent.commit_error herror, ?_⟩
    rw [act, hcall]
    exact Ledger.call_of_error (Prod.ext herror rfl)

/-- No update is lost. Whatever the clients of a ledger do, and in whatever order: an attempt is
carried out exactly if what the client saw is current still, no artefact gets two successors, and
every commit that was carried out under a key is in its history. -/
theorem no_update_is_lost (acts : List (ClientAct κ)) (hfresh : start.Fresh acts) :
    (∀ before since after t, acts = before ++ .look t.client t.key :: since ++ .commit t :: after →
      .look t.client t.key ∉ since →
      Compared (start.after (before ++ .look t.client t.key :: since)) t
        ((start.after before).ledger.currentId t.key)
        ((start.after before).replies (.look t.client t.key :: since))) ∧
    (∀ {i j prior a b}, (start.after acts).ledger.get? i = some a →
      (start.after acts).ledger.get? j = some b → a.supersedes = some prior →
      b.supersedes = some prior → i = j) ∧
    ∀ key, ((start.after acts).ledger.history key).length =
      (start.replies acts).countP (Reply.commits key) := by
  refine ⟨?_, ?_, ?_⟩
  · rintro before since after t rfl hlook
    exact compared ((fresh_append _ _ _).mp hfresh).1 hlook
  · intro i j prior a b ha hb
    rw [ledger_after] at ha hb
    exact (Ledger.backed_of_fresh hfresh).single ha hb
  · intro key
    rw [← List.length_map Artefact.id, (coherent_after hfresh).map_id_history, ledger_after,
      Ledger.length_chain_calls]
    exact Nat.zero_add _

/-! Two clients that look at the same list. The one that commits first is served; the other is told
that its list is no longer current. -/

namespace Example

def attempt (client : Bool) (n : Nat) : Attempt Bool :=
  ⟨client, .ofNat n, Ledger.Example.envelope "123", default, .epoch, .epoch⟩

def look (client : Bool) : ClientAct Bool := .look client (Ledger.Example.envelope "123").key

/-- What happens before the second client looks. -/
def earlier : List (ClientAct Bool) := [look true, .commit (attempt true 1), look true]

/-- What happens before it commits. -/
def since : List (ClientAct Bool) := [.commit (attempt true 2)]

def acts : List (ClientAct Bool) :=
  earlier ++ look false :: since ++ [.commit (attempt false 3)]

end Example

theorem the_slower_client_is_refused :
    start.Fresh Example.acts ∧
      Compared (start.after (Example.earlier ++ Example.look false :: Example.since))
        (Example.attempt false 3) (some (.ofNat 1))
        ((start.after Example.earlier).replies (Example.look false :: Example.since)) ∧
      (start.replies Example.acts).map (Reply.commits (Ledger.Example.envelope "123").key) =
        [true, true, false] :=
  ⟨by decide, (no_update_is_lost Example.acts (by decide)).1 Example.earlier Example.since []
    (Example.attempt false 3) rfl (by decide), by decide⟩

end SharedLedger

end CauseLists
