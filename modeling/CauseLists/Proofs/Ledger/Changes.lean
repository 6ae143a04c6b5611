-- What the two changes to the ledger do. A commit puts one artefact at the end of one chain and
-- closes the artefact that it replaces; an expiry closes one artefact and frees its key. Neither
-- touches any other artefact, and both keep the ledger coherent.
import CauseLists.Proofs.Ledger.Coherence

namespace CauseLists

namespace Ledger

/-! ## One artefact filed anew -/

theorem refile_self {l : Ledger} {id : ArtefactId} {a : Artefact} (ha : l.get? id = some a) :
    l.refile id a = l := by
  rw [refile, Table.put_get?_some ha]

theorem get?_refile (l : Ledger) (id other : ArtefactId) (a : Artefact) :
    (l.refile id a).get? other = if other = id then some a else l.get? other :=
  Table.get?_put id other a l.artefacts

/-- Filing a version of the same record anew brings in nothing else. -/
theorem record_of_refile {l : Ledger} {id other : ArtefactId} {old new a : Artefact}
    (hold : l.get? id = some old) (hsame : old.SameRecord new)
    (ha : (l.refile id new).get? other = some a) :
    ∃ b, l.get? other = some b ∧ b.SameRecord a := by
  rw [get?_refile] at ha
  split at ha
  · rename_i hid
    exact ⟨old, hid ▸ hold, Option.some.inj ha ▸ hsame⟩
  · exact ⟨a, ha, .refl a⟩

/-- A version of the same record stands where the old one stood. -/
theorem history_refile {l : Ledger} (h : Filed l) {old new : Artefact}
    (hold : l.get? old.id = some old) (key : IdentityKey) :
    (l.refile old.id new).history key =
      (l.history key).map (fun a => if a.id = old.id then new else a) := by
  rw [history_eq, history_eq, List.map_filterMap]
  apply List.filterMap_congr
  intro id _
  rw [get?_refile]
  by_cases hid : id = old.id
  · simp [hid, hold]
  · cases hget : l.get? id with
    | none => simp [hid]
    | some a => simp [hid, h.ids hget]

theorem history_refile_of_ne {l : Ledger} (h : Filed l) {old new : Artefact}
    (hold : l.get? old.id = some old) {key : IdentityKey} (hkey : key ≠ old.key) :
    (l.refile old.id new).history key = l.history key := by
  rw [history_refile h hold]
  conv_rhs => rw [← List.map_id (l.history key)]
  apply List.map_congr_left
  intro a ha
  obtain ⟨hget, hakey⟩ := (h.mem_history key a).mp ha
  have hid : a.id ≠ old.id := by
    intro hid
    rw [hid, hold] at hget
    exact hkey (Option.some.inj hget ▸ hakey.symm)
  simp [hid]

/-- Filing the last artefact of a chain anew leaves the rest of the chain alone. -/
theorem history_refile_last {l : Ledger} (h : Filed l) {old new : Artefact}
    (hold : l.get? old.id = some old) {earlier : List Artefact}
    (hlast : l.history old.key = earlier ++ [old]) :
    (l.refile old.id new).history old.key = earlier ++ [new] := by
  rw [history_refile h hold, hlast, List.map_append]
  have hordered := h.ordered old.key
  rw [hlast, List.pairwise_append] at hordered
  congr 1
  · conv_rhs => rw [← List.map_id earlier]
    apply List.map_congr_left
    intro a ha
    have hget := ((h.mem_history old.key a).mp (hlast ▸ List.mem_append_left _ ha)).1
    have hid : a.id ≠ old.id := by
      intro hid
      rw [hid, hold] at hget
      obtain rfl := Option.some.inj hget
      exact absurd (hordered.2.2 old ha old (List.mem_singleton_self old)) (Nat.lt_irrefl _)
    simp [hid]
  · simp

theorem Filed.refile {l : Ledger} (h : Filed l) {old new : Artefact}
    (hold : l.get? old.id = some old) (hsame : old.SameRecord new) :
    Filed (l.refile old.id new) := by
  refine ⟨?_, ?_, ?_, ?_, ?_⟩
  · intro id a ha
    rw [get?_refile] at ha
    split at ha
    · rename_i hid
      rw [hid, ← hsame.id, Option.some.inj ha]
    · exact h.ids ha
  · exact (Table.keys_put_of_get?_some new hold) ▸ h.once
  · exact (Table.map_values_put Artefact.sequence hold hsame.sequence).trans h.numbered
  · intro key id
    show id ∈ l.chain key ↔ _
    rw [h.chained key id, get?_refile]
    by_cases hid : id = old.id
    · rw [hid, hold]
      simp [hsame.key]
    · simp [hid]
  · intro key
    rw [history_refile h hold, List.pairwise_map]
    have hseq : ∀ a ∈ l.history key,
        (if a.id = old.id then new else a).sequence = a.sequence := by
      intro a ha
      have hget := ((h.mem_history key a).mp ha).1
      by_cases hid : a.id = old.id
      · rw [hid, hold] at hget
        rw [if_pos hid, hsame.sequence, Option.some.inj hget]
      · rw [if_neg hid]
    apply (h.ordered key).imp_of_mem
    intro a b ha hb hlt
    rw [hseq a ha, hseq b hb]
    exact hlt

/-! ## One artefact more -/

/-- What is filed has another identifier than what is not. -/
theorem ne_of_new {l : Ledger} {new id : ArtefactId} {a : Artefact} (hnew : l.get? new = none)
    (ha : l.get? id = some a) : id ≠ new := by
  rintro rfl
  rw [hnew] at ha
  cases ha

theorem get?_append (l : Ledger) (a : Artefact) (id : ArtefactId) :
    (l.append a).2.get? id = if id = a.id then some (l.append a).1 else l.get? id :=
  Table.get?_put a.id id (l.append a).1 l.artefacts

theorem current_append (l : Ledger) (a : Artefact) (key : IdentityKey) :
    Table.get? key (l.append a).2.current =
      if key = a.key then some a.id else Table.get? key l.current :=
  Table.get?_put a.key key a.id l.current

theorem chain_append (l : Ledger) (a : Artefact) (key : IdentityKey) :
    (l.append a).2.chain key = if key = a.key then l.chain key ++ [a.id] else l.chain key := by
  show (Table.get? key (Table.put a.key _ l.chains)).getD [] = _
  rw [Table.get?_put]
  split
  · rename_i hkey
    rw [hkey]
    rfl
  · rfl

theorem history_append {l : Ledger} (h : Filed l) {a : Artefact} (hnew : l.get? a.id = none)
    (key : IdentityKey) : (l.append a).2.history key =
      if key = a.key then l.history key ++ [(l.append a).1] else l.history key := by
  have hold : (l.chain key).filterMap (l.append a).2.get? = l.history key := by
    rw [history_eq]
    apply List.filterMap_congr
    intro id hid
    obtain ⟨b, hb, -⟩ := (h.chained key id).mp hid
    rw [get?_append, if_neg (ne_of_new hnew hb)]
  rw [history_eq, chain_append]
  split
  · rw [List.filterMap_append, hold]
    simp [get?_append]
  · exact hold

theorem Filed.append {l : Ledger} (h : Filed l) {a : Artefact} (hnew : l.get? a.id = none) :
    Filed (l.append a).2 := by
  refine ⟨?_, ?_, ?_, ?_, ?_⟩
  · intro id b hb
    rw [get?_append] at hb
    split at hb
    · rename_i hid
      rw [hid, ← Option.some.inj hb]
      rfl
    · exact h.ids hb
  · exact Table.nodup_keys_put_of_get?_none _ h.once hnew
  · show (Table.values (Table.put a.id _ l.artefacts)).map _ = List.range' 1 (l.lastSequence + 1)
    rw [Table.put_of_get?_none _ hnew, List.range'_concat, ← h.numbered]
    simp [Table.values, Nat.add_comm]
  · intro key id
    rw [chain_append, get?_append]
    by_cases hid : id = a.id
    · have hout : a.id ∉ l.chain key := by
        intro hin
        obtain ⟨b, hb, -⟩ := (h.chained key a.id).mp hin
        rw [hnew] at hb
        cases hb
      rw [hid]
      split
      · rename_i hkey
        simp [hkey, Ledger.append, Artefact.key]
      · rename_i hkey
        simp only [hout, if_true, false_iff, not_exists, not_and]
        intro b hb hbkey
        exact hkey (hbkey ▸ Option.some.inj hb ▸ rfl)
    · simp only [hid, if_false]
      rw [← h.chained key id]
      split
      · simp [hid]
      · rfl
  · intro key
    rw [history_append h hnew]
    split
    · rw [List.pairwise_append]
      refine ⟨h.ordered key, List.pairwise_singleton _ _, ?_⟩
      intro b hb c hc
      rw [List.mem_singleton.mp hc]
      have := (h.sequence_mem ((h.mem_history key b).mp hb).1).2
      exact Nat.lt_succ_of_le this
    · exact h.ordered key

end Ledger

end CauseLists
