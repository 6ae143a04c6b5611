-- The invariant of the ledger. Its three tables, its counter and the links inside the artefacts say
-- the same thing: who is current, in which order the artefacts of a key came, and how each of them
-- made room for the next. Commits and expiries keep it.
import CauseLists.Ledger
import CauseLists.Proofs.Artefact.Lifecycle
import CauseLists.Proofs.Tables
import Mathlib.Data.List.Chain

namespace CauseLists

namespace Ledger

/-- The identifiers of the artefacts of a key, in the order of their commits. -/
def chain (l : Ledger) (key : IdentityKey) : List ArtefactId := (Table.get? key l.chains).getD []

theorem history_eq (l : Ledger) (key : IdentityKey) :
    l.history key = (l.chain key).filterMap l.get? := rfl

/-! ## The invariant -/

/-- The artefacts are filed under their own identifiers, numbered from 1 in the order of their
commits, and each stands once in the chain of its key. -/
structure Filed (l : Ledger) : Prop where
  ids : ∀ {id a}, l.get? id = some a → a.id = id
  once : (Table.keys l.artefacts).Nodup
  numbered : (Table.values l.artefacts).map Artefact.sequence = List.range' 1 l.lastSequence
  chained : ∀ key id, id ∈ l.chain key ↔ ∃ a, l.get? id = some a ∧ a.key = key
  ordered : ∀ key, (l.history key).Pairwise (fun a b => a.sequence < b.sequence)

/-- An artefact made room for the one that came next under its key: it was superseded by it, or
it had expired before. -/
def Precedes (a b : Artefact) : Prop :=
  (a.state = .superseded ∧ a.supersededBy = some b.id ∧ b.supersedes = some a.id) ∨
  (a.state = .expired ∧ a.supersededBy = none ∧ b.supersedes = none)

/-- The index and the chains agree with the states of the artefacts. -/
structure Coherent (l : Ledger) : Prop extends Filed l where
  indexed : ∀ key id, Table.get? key l.current = some id ↔
    ∃ a, l.get? id = some a ∧ a.key = key ∧ a.state = .current
  linked : ∀ key, (l.history key).IsChain Precedes
  /-- Whatever was superseded has a successor in its chain. -/
  tip : ∀ key a, (l.history key).getLast? = some a → a.state ≠ .superseded
  unlinked : ∀ {id a}, l.get? id = some a → a.state ≠ .superseded → a.supersededBy = none

theorem coherent_empty : empty.Coherent where
  ids := by simp [empty, get?]
  once := by simp [empty, Table.keys]
  numbered := by simp [empty, Table.values]
  chained := by simp [empty, chain, get?]
  ordered := by simp [empty, history]
  indexed := by simp [empty, get?]
  linked := by simp [empty, history]
  tip := by simp [empty, history]
  unlinked := by simp [empty, get?]

/-! ## What it says -/

theorem Filed.mem_history {l : Ledger} (h : Filed l) (key : IdentityKey) (a : Artefact) :
    a ∈ l.history key ↔ l.get? a.id = some a ∧ a.key = key := by
  rw [history_eq, List.mem_filterMap]
  constructor
  · rintro ⟨id, hid, ha⟩
    obtain ⟨b, hb, hkey⟩ := (h.chained key id).mp hid
    obtain rfl : b = a := Option.some.inj (hb.symm.trans ha)
    rw [h.ids ha]
    exact ⟨ha, hkey⟩
  · rintro ⟨ha, hkey⟩
    exact ⟨a.id, (h.chained key a.id).mpr ⟨a, ha, hkey⟩, ha⟩

/-- The sequence numbers are those of the commits so far. -/
theorem Filed.sequence_mem {l : Ledger} (h : Filed l) {id : ArtefactId} {a : Artefact}
    (ha : l.get? id = some a) : 1 ≤ a.sequence ∧ a.sequence ≤ l.lastSequence := by
  have hmem : a.sequence ∈ (Table.values l.artefacts).map Artefact.sequence :=
    List.mem_map_of_mem (Table.mem_values_of_get? ha)
  rw [h.numbered, List.mem_range'_1] at hmem
  omega

theorem Filed.size_eq {l : Ledger} (h : Filed l) : l.size = l.lastSequence := by
  have hlength := congrArg List.length h.numbered
  simpa [Table.values, size] using hlength

/-- The current artefact of a key is the one that the index names. -/
theorem Coherent.currentFor_eq_some {l : Ledger} (h : Coherent l) {key : IdentityKey}
    {a : Artefact} (ha : l.currentFor key = some a) :
    Table.get? key l.current = some a.id ∧ l.get? a.id = some a ∧ a.key = key ∧
      a.state = .current := by
  obtain ⟨id, hid, hget⟩ := Option.bind_eq_some_iff.mp ha
  obtain ⟨b, hb, hkey, hstate⟩ := (h.indexed key id).mp hid
  obtain rfl : b = a := Option.some.inj (hb.symm.trans hget)
  rw [h.ids hb]
  exact ⟨hid, hb, hkey, hstate⟩

theorem Coherent.currentFor_of_current {l : Ledger} (h : Coherent l) {a : Artefact}
    (ha : l.get? a.id = some a) (hstate : a.state = .current) : l.currentFor a.key = some a := by
  have hindex := (h.indexed a.key a.id).mpr ⟨a, ha, rfl, hstate⟩
  rw [currentFor, hindex]
  exact ha

theorem Coherent.currentFor_eq_none {l : Ledger} (h : Coherent l) {key : IdentityKey}
    (hnone : l.currentFor key = none) : Table.get? key l.current = none := by
  cases hid : Table.get? key l.current with
  | none => rfl
  | some id =>
    obtain ⟨a, ha, -, -⟩ := (h.indexed key id).mp hid
    simp [currentFor, hid, ha] at hnone

/-- A current artefact is the last of its chain: whoever has a successor has left the state. -/
theorem Coherent.history_of_current {l : Ledger} (h : Coherent l) {a : Artefact}
    (ha : l.get? a.id = some a) (hstate : a.state = .current) :
    ∃ earlier, l.history a.key = earlier ++ [a] := by
  obtain ⟨earlier, later, hsplit⟩ :=
    List.append_of_mem ((h.mem_history a.key a).mpr ⟨ha, rfl⟩)
  cases later with
  | nil => exact ⟨earlier, hsplit⟩
  | cons b rest =>
    have hlinked := h.linked a.key
    rw [hsplit, List.isChain_append_cons_cons] at hlinked
    rcases hlinked.2.1 with ⟨hs, -⟩ | ⟨hs, -⟩ <;> rw [hstate] at hs <;> cases hs

/-- If nothing is current under a key, the last of its chain has expired. -/
theorem Coherent.last_of_no_current {l : Ledger} (h : Coherent l) {key : IdentityKey}
    (hnone : Table.get? key l.current = none) {a : Artefact}
    (ha : (l.history key).getLast? = some a) : a.state = .expired ∧ a.supersededBy = none := by
  obtain ⟨hget, hkey⟩ := (h.mem_history key a).mp (List.mem_of_getLast? ha)
  have hlive : a.state ≠ .current := by
    intro hstate
    have := (h.indexed key a.id).mpr ⟨a, hget, hkey, hstate⟩
    rw [hnone] at this
    cases this
  have hopen := h.tip key a ha
  refine ⟨?_, h.unlinked hget hopen⟩
  cases hs : a.state with
  | current => exact absurd hs hlive
  | superseded => exact absurd hs hopen
  | expired => rfl

end Ledger

end CauseLists
