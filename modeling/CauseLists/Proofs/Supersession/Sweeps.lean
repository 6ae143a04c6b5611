-- What a sweep does to the archive: it expires artefacts one after another and nothing else, so
-- whatever an expiry keeps, a sweep keeps.
import CauseLists.Proofs.Supersession.Commits
import Mathlib.Logic.Relation

namespace CauseLists

open Relation (ReflTransGen)

variable {ε : Type}

/-- One artefact of a ledger expires at an instant. -/
def Ledger.Expires (now : Instant) (l l' : Ledger) : Prop :=
  ∃ id b, l.expire id now = (.ok b, l')

/-- A ledger after some expiries is coherent if it was before. -/
theorem Ledger.coherent_of_expires {now : Instant} {l l' : Ledger} (h : l.Coherent)
    (hl : ReflTransGen (Ledger.Expires now) l l') : l'.Coherent := by
  induction hl with
  | refl => exact h
  | tail _ hstep ih =>
    obtain ⟨id, b, hexpire⟩ := hstep
    exact Ledger.coherent_expire ih hexpire

/-- Expiries bring in no artefact. -/
theorem Ledger.record_of_expires {now : Instant} {l l' : Ledger}
    (hl : ReflTransGen (Ledger.Expires now) l l') {id : ArtefactId} {a : Artefact}
    (ha : l'.get? id = some a) : ∃ b, l.get? id = some b ∧ b.SameRecord a := by
  induction hl generalizing a with
  | refl => exact ⟨a, ha, .refl a⟩
  | tail _ hstep ih =>
    obtain ⟨other, b, hexpire⟩ := hstep
    obtain ⟨c, hc, hsame⟩ := Ledger.record_of_expire hexpire ha
    obtain ⟨d, hd, hsame'⟩ := ih hc
    exact ⟨d, hd, hsame'.trans hsame⟩

namespace Engine

theorem expireIfCurrent_ledger (a : Archive ε) (key : IdentityKey) (id : ArtefactId)
    (now : Instant) : ∃ l, ReflTransGen (Ledger.Expires now) a.ledger l ∧
      (expireIfCurrent a key id now).2 = { a with ledger := l } := by
  unfold expireIfCurrent
  split
  · exact ⟨a.ledger, .refl, rfl⟩
  · split
    · unfold Archive.expire
      rcases hexpire : a.ledger.expire id now with ⟨e | b, l⟩
      · obtain rfl := Ledger.expire_of_error hexpire
        exact ⟨a.ledger, .refl, rfl⟩
      · exact ⟨l, .single ⟨id, b, hexpire⟩, rfl⟩
    · exact ⟨a.ledger, .refl, rfl⟩

/-- One candidate of a sweep. -/
theorem expireLocked_ledger (a : Archive ε) (candidate : Artefact) (now : Instant) :
    ∃ l locks, ReflTransGen (Ledger.Expires now) a.ledger l ∧
      (withLock a candidate.key (.ok none)
        (fun a => expireIfCurrent a candidate.key candidate.id now)).2 =
        { a with ledger := l, locks } := by
  rcases withLock_cases a candidate.key (.ok none)
    (fun a => expireIfCurrent a candidate.key candidate.id now) with
    ⟨locks, heq⟩ | ⟨held, locks, heq⟩
  · rw [heq]
    exact ⟨a.ledger, locks, .refl, rfl⟩
  · obtain ⟨l, hl, hafter⟩ :=
      expireIfCurrent_ledger { a with locks := held } candidate.key candidate.id now
    rw [heq]
    dsimp only
    rw [hafter]
    exact ⟨l, locks, hl, rfl⟩

theorem expireEach_ledger (a : Archive ε) (now : Instant) (candidates : List Artefact) :
    ∃ l locks, ReflTransGen (Ledger.Expires now) a.ledger l ∧
      (expireEach a now candidates).2 = { a with ledger := l, locks } := by
  induction candidates generalizing a with
  | nil => exact ⟨a.ledger, a.locks, .refl, rfl⟩
  | cons candidate rest ih =>
    obtain ⟨l, locks, hl, hone⟩ := expireLocked_ledger a candidate now
    unfold expireEach
    -- The sweep goes on with the rest unless the candidate could not be expired.
    split
    · rename_i err a' hsplit
      rw [hsplit] at hone
      exact ⟨l, locks, hl, hone⟩
    · rename_i expired a' hsplit
      rw [hsplit] at hone
      obtain rfl : a' = { a with ledger := l, locks } := hone
      obtain ⟨l', locks', hl', hrest⟩ := ih { a with ledger := l, locks }
      refine ⟨l', locks', hl.trans hl', ?_⟩
      split
      · rename_i hsplit'
        rw [hsplit'] at hrest
        exact hrest
      · rename_i hsplit'
        rw [hsplit'] at hrest
        exact hrest

/-- A sweep does nothing but expire artefacts. -/
theorem expireDue_ledger (a : Archive ε) (now : Instant) :
    ∃ l locks, ReflTransGen (Ledger.Expires now) a.ledger l ∧
      (expireDue a now).2 = { a with ledger := l, locks } :=
  expireEach_ledger a now _

end Engine

/-- Sweeps keep archives coherent. -/
theorem Archive.Coherent.expireDue {a : Archive ε} (h : a.Coherent) (now : Instant) :
    (Engine.expireDue a now).2.Coherent := by
  obtain ⟨l, locks, hl, heq⟩ := Engine.expireDue_ledger a now
  rw [heq]
  refine ⟨Ledger.coherent_of_expires h.ledger hl, ?_⟩
  intro id artefact hget
  obtain ⟨b, hb, -⟩ := Ledger.record_of_expires hl hget
  exact h.drawn hb

/-- Sweeps keep archives sound. -/
theorem Archive.Sound.expireDue {a : Archive ε} (h : a.Sound) (now : Instant) :
    (Engine.expireDue a now).2.Sound := by
  have hcoherent := Archive.Coherent.expireDue ⟨h.coherent, h.drawn⟩ now
  refine ⟨hcoherent.ledger, ?_, hcoherent.drawn⟩
  obtain ⟨l, locks, -, heq⟩ := Engine.expireDue_ledger a now
  rw [heq]
  exact h.memory

end CauseLists
