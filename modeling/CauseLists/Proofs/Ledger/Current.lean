-- The current artefacts as one list. The index has one row for each key, so the list holds every
-- current artefact once, no two of them under one key, in the order of their commits.
import CauseLists.Proofs.Ledger.Steps
import Mathlib.Data.List.Nodup

namespace CauseLists

namespace Ledger

/-! ## One row for each key -/

/-- The index has one row for each key. -/
def IndexedOnce (l : Ledger) : Prop := (Table.keys l.current).Nodup

theorem indexedOnce_empty : empty.IndexedOnce := List.nodup_nil

theorem IndexedOnce.commit {l l' : Ledger} (h : l.IndexedOnce) {c : Commit} {b : Artefact}
    (hok : l.commit c = (.ok b, l')) : l'.IndexedOnce := by
  obtain ⟨-, ⟨-, happend⟩ | ⟨id, prior, closed, -, -, -, happend⟩⟩ := commit_eq_ok hok
  all_goals
    obtain rfl := congrArg Prod.snd happend
    exact Table.nodup_keys_put _ h

theorem IndexedOnce.expire {l l' : Ledger} (h : l.IndexedOnce) {id : ArtefactId} {now : Instant}
    {b : Artefact} (hok : l.expire id now = (.ok b, l')) : l'.IndexedOnce := by
  obtain ⟨a, -, -, rfl⟩ := expire_eq_ok hok
  unfold IndexedOnce
  dsimp only
  split
  · exact Table.nodup_keys_erase _ h
  · exact h

/-! ## The list -/

variable {l : Ledger}

/-- The artefact that a row of the index names is current under its key. -/
theorem Coherent.current_of_row (h : l.Coherent) (honce : l.IndexedOnce)
    {row : IdentityKey × ArtefactId} (hrow : row ∈ l.current) {a : Artefact}
    (ha : l.get? row.2 = some a) :
    a.id = row.2 ∧ a.key = row.1 ∧ a.state = .current := by
  have hindex := (Table.mem_iff_get? honce row.1 row.2).mp hrow
  obtain ⟨b, hb, hkey, hstate⟩ := (h.indexed row.1 row.2).mp hindex
  obtain rfl := Option.some.inj (hb.symm.trans ha)
  exact ⟨h.ids ha, hkey, hstate⟩

theorem Coherent.mem_currentArtefacts (h : l.Coherent) (honce : l.IndexedOnce) (a : Artefact) :
    a ∈ l.currentArtefacts ↔ l.get? a.id = some a ∧ a.state = .current := by
  rw [currentArtefacts, List.mem_mergeSort, List.mem_filterMap]
  constructor
  · rintro ⟨id, hid, ha⟩
    obtain ⟨row, hrow, rfl⟩ := List.mem_map.mp hid
    obtain ⟨hsame, -, hstate⟩ := h.current_of_row honce hrow ha
    exact ⟨hsame ▸ ha, hstate⟩
  · rintro ⟨ha, hstate⟩
    have hindex := (h.indexed a.key a.id).mpr ⟨a, ha, rfl, hstate⟩
    exact ⟨a.id, Table.mem_values_of_get? hindex, ha⟩

/-- No two current artefacts have one key. -/
theorem Coherent.keys_currentArtefacts (h : l.Coherent) (honce : l.IndexedOnce) :
    l.currentArtefacts.Pairwise (fun a b => a.key ≠ b.key) := by
  have hrows : l.current.Pairwise (fun r s => r.1 ≠ s.1) := List.pairwise_map.mp honce
  have hnamed : ((Table.values l.current).filterMap l.get?).Pairwise
      (fun a b => a.key ≠ b.key) := by
    rw [Table.values, List.filterMap_map, List.pairwise_filterMap]
    refine hrows.imp_of_mem ?_
    intro r s hr hs hne a ha b hb
    rw [(h.current_of_row honce hr ha).2.1, (h.current_of_row honce hs hb).2.1]
    exact hne
  exact ((List.mergeSort_perm _ _).pairwise_iff Ne.symm).mpr hnamed

/-- Artefacts of a ledger are told apart by their sequence numbers. -/
theorem Filed.eq_of_sequence (h : l.Filed) {a b : Artefact} (ha : l.get? a.id = some a)
    (hb : l.get? b.id = some b) (hsame : a.sequence = b.sequence) : a = b := by
  have hnodup : ((Table.values l.artefacts).map Artefact.sequence).Nodup := by
    rw [h.numbered]
    exact List.nodup_range'
  exact List.inj_on_of_nodup_map hnodup (Table.mem_values_of_get? ha)
    (Table.mem_values_of_get? hb) hsame

/-- The current artefacts stand in the order of their commits. -/
theorem Coherent.currentArtefacts_inOrder (h : l.Coherent) (honce : l.IndexedOnce) :
    l.currentArtefacts.Pairwise (fun a b => a.sequence < b.sequence) := by
  have hsorted : l.currentArtefacts.Pairwise
      (fun a b => decide (a.sequence ≤ b.sequence) = true) := by
    refine List.pairwise_mergeSort ?_ ?_ _
    · intro a b c hab hbc
      simp only [decide_eq_true_eq] at hab hbc ⊢
      omega
    · intro a b
      simp only [Bool.or_eq_true, decide_eq_true_eq]
      omega
  refine (hsorted.and (h.keys_currentArtefacts honce)).imp_of_mem ?_
  rintro a b ha hb ⟨hle, hkey⟩
  have ha := ((h.mem_currentArtefacts honce a).mp ha).1
  have hb := ((h.mem_currentArtefacts honce b).mp hb).1
  have hne : a.sequence ≠ b.sequence :=
    fun hsame => hkey (congrArg Artefact.key (h.toFiled.eq_of_sequence ha hb hsame))
  have := of_decide_eq_true hle
  omega

end Ledger

end CauseLists
