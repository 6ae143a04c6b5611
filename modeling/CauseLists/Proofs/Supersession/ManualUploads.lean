-- Uploads by hand, which come without an identifier of their provider. Their keys are read as
-- naming a day, but they hold the instant: of two uploads alike in everything else the second
-- supersedes the first only if both have the same content date to the second. Otherwise both are
-- current side by side, and on one day their keys even read the same.
import CauseLists.Proofs.Supersession.Decisions

namespace CauseLists

/-- Two uploads by hand from one provider, of one list, for one court and in one language. -/
structure Envelope.Siblings (e e' : Envelope) : Prop where
  byHand : e.sourceId = none
  byHand' : e'.sourceId = none
  provenance : e'.provenance = e.provenance
  listType : e'.listType = e.listType
  location : e'.location = e.location
  language : e'.language = e.language

namespace Envelope.Siblings

variable {e e' : Envelope}

/-- The keys of siblings differ in the content date alone. -/
theorem key_eq_iff (h : e.Siblings e') : e.key = e'.key ↔ e.contentDate = e'.contentDate := by
  simp [Envelope.key, h.byHand, h.byHand', h.provenance, h.listType, h.location, h.language]

/-- The keys of siblings read the same if their content dates are on one day. -/
theorem key_text_eq (h : e.Siblings e') (hday : e.contentDate.date = e'.contentDate.date) :
    e.key.text = e'.key.text := by
  simp [Envelope.key, IdentityKey.text, h.byHand, h.byHand', h.provenance, h.listType, h.location,
    h.language, hday]

end Envelope.Siblings

namespace Engine

variable {ε : Type} {refuses : ε → Envelope → Bytes → Option StorageError} {timeout : Nat}

/-- Of two uploads that are alike in all but their content dates the second supersedes the first
exactly if both have the same content date, to the second. If they differ the first stays current,
also when both are on one day and their keys read the same. -/
theorem siblings_supersede_each_other_at_one_instant_only {first second : Envelope}
    (h : first.Siblings second) :
    (first.key = second.key ↔ first.contentDate = second.contentDate) ∧
    (first.contentDate.date = second.contentDate.date → first.key.text = second.key.text) ∧
    ∀ {a : Archive ε} {p : Artefact} {body : Bytes} {now : Instant},
      Reached ⟨.refusing refuses, timeout⟩ a → a.ids.next.2.Distinct → a.locks.Free →
      (∃ stored payloads, a.keep refuses second body = (.ok stored, payloads)) →
      a.ledger.currentFor first.key = some p → now ≤ p.envelope.displayTo →
      ∃ c a', Engine.commit ⟨.refusing refuses, timeout⟩ a second body now = (.ok c, a') ∧
        (c.decision = .supersede p.id ↔ first.contentDate = second.contentDate) ∧
        (first.contentDate ≠ second.contentDate →
          a'.ledger.currentFor first.key = some p ∧
            a'.ledger.currentFor second.key = some c.artefact) := by
  refine ⟨h.key_eq_iff, h.key_text_eq, ?_⟩
  intro a p body now hreach hids hfree hkept hp hopen
  have ha := hreach.coherent (a.ids.continues_next.distinct hids)
  obtain ⟨c, a', hcommit, htakes⟩ := commit_takes ha hids hfree hkept now
  obtain ⟨hindex, hget, hkey, -⟩ := ha.ledger.currentFor_eq_some hp
  refine ⟨c, a', hcommit, ?_, ?_⟩
  · rw [← h.key_eq_iff, htakes.supersedes]
    constructor
    · rintro ⟨q, hq, -, hid⟩
      obtain ⟨-, hq', hqkey, -⟩ := ha.ledger.currentFor_eq_some hq
      rw [hid, hget] at hq'
      obtain rfl := Option.some.inj hq'
      exact hkey.symm.trans hqkey
    · intro hsame
      exact ⟨p, hsame ▸ hp, hopen, rfl⟩
  · intro hdiffer
    have hother : first.key ≠ second.key := fun hsame => hdiffer (h.key_eq_iff.mp hsame)
    exact ⟨(htakes.elsewhere first.key hother).trans hp, htakes.current⟩

/-! Two uploads by hand on one day, at midnight and at noon. -/

namespace Example

def upload (contentDate : Instant) : Envelope := { envelope with sourceId := none, contentDate }

def midnight : Envelope := upload .epoch

def noon : Envelope := upload ⟨43200, by decide⟩

/-- The archive after the upload at midnight. -/
def afterMidnight : Archive Unit := after midnight

end Example

theorem the_upload_at_noon_stands_beside_the_one_at_midnight :
    Example.midnight.Siblings Example.noon ∧
      Example.midnight.contentDate.date = Example.noon.contentDate.date ∧
      Example.midnight.key.text = Example.noon.key.text ∧ Example.midnight.key ≠ Example.noon.key ∧
      ∃ p c a', Example.afterMidnight.ledger.currentFor Example.midnight.key = some p ∧
        Example.engine.commit Example.afterMidnight Example.noon [91, 93] .epoch = (.ok c, a') ∧
        c.decision ≠ .supersede p.id ∧
        a'.ledger.currentFor Example.midnight.key = some p ∧
        a'.ledger.currentFor Example.noon.key = some c.artefact := by
  have hsiblings : Example.midnight.Siblings Example.noon := ⟨rfl, rfl, rfl, rfl, rfl, rfl⟩
  have hday : Example.midnight.contentDate.date = Example.noon.contentDate.date := by decide
  have hdiffer : Example.midnight.contentDate ≠ Example.noon.contentDate := by decide
  obtain ⟨hkey, htext, hcommit⟩ :=
    @siblings_supersede_each_other_at_one_instant_only Unit (fun _ _ _ => none) 100 _ _ hsiblings
  have hreach : Reached Example.engine Example.afterMidnight := Example.reached_after _
  have hids : Example.afterMidnight.ids.next.2.Distinct :=
    Example.distinct_of_two rfl (by decide +kernel)
  have hfree : Example.afterMidnight.locks.Free := Example.free_of_no_numbers (by decide +kernel)
  have hcurrent : (Example.afterMidnight.ledger.currentFor Example.midnight.key).map
      (fun p => p.envelope.displayTo) = some .epoch := by
    decide +kernel
  obtain ⟨p, hp, hto⟩ := Option.map_eq_some_iff.mp hcurrent
  have hopen : Instant.epoch ≤ p.envelope.displayTo := hto ▸ Int.le_refl _
  obtain ⟨c, a', hdone, hdecision, hbeside⟩ :=
    hcommit hreach hids hfree ⟨_, _, rfl⟩ hp hopen
  obtain ⟨hold, hnew⟩ := hbeside hdiffer
  exact ⟨hsiblings, hday, htext hday, fun hsame => hdiffer (hkey.mp hsame), p, c, a', hp, hdone,
    fun hsupersedes => hdiffer (hdecision.mp hsupersedes), hold, hnew⟩

end Engine

end CauseLists
