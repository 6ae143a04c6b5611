-- Expiries that are let wait. To retire an artefact is to expire it without asking whether that can
-- be done; it is the same as an expiry where one succeeds. Retiring under one key commutes with
-- every change under another, so it makes no difference whether the change came before it or after.
import CauseLists.Proofs.Ledger.Effects
import Mathlib.Data.List.Perm.Basic

namespace CauseLists

namespace Ledger

/-- An expiry under a key. -/
structure Retirement where
  id : ArtefactId
  key : IdentityKey
  now : Instant
deriving DecidableEq, Repr

/-- Closes an artefact and frees its key. -/
def retire (l : Ledger) (r : Retirement) : Ledger :=
  { l with
    artefacts := Table.modify r.id (fun a => (a.expire r.now).2) l.artefacts
    current := Table.erase r.key l.current }

/-- Retirements one after another. -/
def retireAll (l : Ledger) (rs : List Retirement) : Ledger := rs.foldl retire l

theorem retireAll_cons (l : Ledger) (r : Retirement) (rs : List Retirement) :
    l.retireAll (r :: rs) = (l.retire r).retireAll rs := rfl

theorem retireAll_append (l : Ledger) (rs more : List Retirement) :
    l.retireAll (rs ++ more) = (l.retireAll rs).retireAll more := List.foldl_append

/-- An expiry that succeeds retires the artefact. -/
theorem Coherent.retire_of_expire {l l' : Ledger} (h : Coherent l) {a b : Artefact} {now : Instant}
    (ha : l.get? a.id = some a) (hok : l.expire a.id now = (.ok b, l')) :
    l' = l.retire ⟨a.id, a.key, now⟩ := by
  have hwas : a.state = .current := by
    obtain ⟨a', ha', hexp, -⟩ := Ledger.expire_eq_ok hok
    obtain rfl := Option.some.inj (ha.symm.trans ha')
    exact hexp.was
  have hindex := (h.indexed a.key a.id).mpr ⟨a, ha, rfl, hwas⟩
  unfold expire at hok
  rw [ha] at hok
  dsimp only at hok
  rcases hexpire : a.expire now with ⟨e | ⟨⟩, closed⟩
  · rw [hexpire] at hok
    cases hok
  · have hkey : closed.key = a.key := (Artefact.expire_spec hexpire).record.key
    have hput : Table.put a.id closed l.artefacts =
        Table.modify a.id (fun a => (a.expire now).2) l.artefacts := by
      rw [← Table.put_of_get?_some _ ha]
      simp [hexpire]
    simp only [hexpire, hkey, refile, hindex, if_true, hput, Prod.mk.injEq] at hok
    exact hok.2.symm

/-! ## What retiring touches -/

theorem get?_retire_of_ne (l : Ledger) {r : Retirement} {id : ArtefactId} (h : id ≠ r.id) :
    (l.retire r).get? id = l.get? id :=
  (Table.get?_modify r.id id _ l.artefacts).trans (if_neg h)

theorem index_retire_of_ne (l : Ledger) {r : Retirement} {key : IdentityKey} (h : key ≠ r.key) :
    Table.get? key (l.retire r).current = Table.get? key l.current :=
  Table.get?_erase_of_ne h l.current

/-- Retiring brings in no artefact. -/
theorem record_of_retire {l : Ledger} {r : Retirement} {id : ArtefactId} {a : Artefact}
    (ha : (l.retire r).get? id = some a) : ∃ b, l.get? id = some b ∧ b.SameRecord a := by
  by_cases hid : id = r.id
  · obtain ⟨b, hb, rfl⟩ := Option.map_eq_some_iff.mp
      (((Table.get?_modify r.id id _ l.artefacts).trans (if_pos hid)).symm.trans ha)
    refine ⟨b, hid ▸ hb, ?_⟩
    rcases hexpire : b.expire r.now with ⟨e | ⟨⟩, closed⟩
    · exact Artefact.expire_of_error hexpire ▸ .refl b
    · exact (Artefact.expire_spec hexpire).record
  · rw [get?_retire_of_ne l hid] at ha
    exact ⟨a, ha, .refl a⟩

theorem record_of_retireAll {l : Ledger} {rs : List Retirement} {id : ArtefactId} {a : Artefact}
    (ha : (l.retireAll rs).get? id = some a) : ∃ b, l.get? id = some b ∧ b.SameRecord a := by
  induction rs generalizing l with
  | nil => exact ⟨a, ha, .refl a⟩
  | cons r rs ih =>
    obtain ⟨b, hb, hsame⟩ := ih ha
    obtain ⟨c, hc, hsame'⟩ := record_of_retire hb
    exact ⟨c, hc, hsame'.trans hsame⟩

theorem retireAll_chains (l : Ledger) (rs : List Retirement) :
    (l.retireAll rs).chains = l.chains := by
  induction rs generalizing l with
  | nil => rfl
  | cons r rs ih => exact ih (l.retire r)

theorem retireAll_lastSequence (l : Ledger) (rs : List Retirement) :
    (l.retireAll rs).lastSequence = l.lastSequence := by
  induction rs generalizing l with
  | nil => rfl
  | cons r rs ih => exact ih (l.retire r)

theorem get?_retireAll_of_ne {l : Ledger} {rs : List Retirement} {id : ArtefactId}
    (h : ∀ r ∈ rs, id ≠ r.id) : (l.retireAll rs).get? id = l.get? id := by
  induction rs generalizing l with
  | nil => rfl
  | cons r rs ih =>
    obtain ⟨hfirst, hrest⟩ := List.forall_mem_cons.mp h
    rw [retireAll_cons, ih hrest, get?_retire_of_ne l hfirst]

/-- Retirements make no key current. -/
theorem index_retireAll_of_none {l : Ledger} {key : IdentityKey}
    (hnone : Table.get? key l.current = none) (rs : List Retirement) :
    Table.get? key (l.retireAll rs).current = none := by
  induction rs generalizing l with
  | nil => exact hnone
  | cons r rs ih =>
    refine ih ?_
    show Table.get? key (Table.erase r.key l.current) = none
    rw [Table.get?_erase, hnone, ite_self]

/-- A key under which something retired is free. -/
theorem index_retireAll_of_mem (l : Ledger) {rs : List Retirement} {r : Retirement}
    (hr : r ∈ rs) : Table.get? r.key (l.retireAll rs).current = none := by
  induction rs generalizing l with
  | nil => cases hr
  | cons s rs ih =>
    rcases List.mem_cons.mp hr with rfl | hr
    · exact index_retireAll_of_none (Table.get?_erase_self r.key l.current) rs
    · exact ih (l.retire s) hr

/-! ## Changes in another order -/

/-- Retirements of different artefacts under different keys. -/
def Retirement.Apart (r s : Retirement) : Prop := r.id ≠ s.id ∧ r.key ≠ s.key

theorem retire_comm (l : Ledger) {r s : Retirement} (h : r.Apart s) :
    (l.retire r).retire s = (l.retire s).retire r := by
  simp only [retire, Table.modify_modify_of_ne (Ne.symm h.1), Table.erase_erase_comm s.key r.key]

instance : Std.Symm Retirement.Apart := ⟨fun _ _ h => ⟨Ne.symm h.1, Ne.symm h.2⟩⟩

/-- Of retirements of different artefacts each closes its own. -/
theorem get?_retireAll_of_mem {l : Ledger} {rs : List Retirement}
    (hapart : rs.Pairwise Retirement.Apart) {r : Retirement} (hr : r ∈ rs) :
    (l.retireAll rs).get? r.id =
      (l.get? r.id).map (fun a => (a.expire r.now).2) := by
  induction rs generalizing l with
  | nil => cases hr
  | cons s rs ih =>
    obtain ⟨hfirst, hrest⟩ := List.pairwise_cons.mp hapart
    rw [retireAll_cons]
    rcases List.mem_cons.mp hr with rfl | hr
    · rw [get?_retireAll_of_ne (fun t ht => (hfirst t ht).1)]
      exact (Table.get?_modify r.id r.id _ l.artefacts).trans (if_pos rfl)
    · rw [ih hrest hr, get?_retire_of_ne l (Ne.symm (hfirst r hr).1)]

theorem retireAll_perm {rs rs' : List Retirement} (hperm : rs.Perm rs')
    (hapart : rs.Pairwise Retirement.Apart) (l : Ledger) : l.retireAll rs = l.retireAll rs' := by
  refine hperm.foldl_eq' ?_ l
  intro r hr s hs l
  by_cases hsame : r = s
  · rw [hsame]
  · exact retire_comm l (hapart.forall hr hs hsame)

/-- What is current under a key stays so while other artefacts retire under other keys. -/
theorem currentFor_retire {l : Ledger} {r : Retirement} {key : IdentityKey} (hkey : key ≠ r.key)
    (hid : Table.get? key l.current ≠ some r.id) :
    (l.retire r).currentFor key = l.currentFor key := by
  unfold currentFor
  rw [index_retire_of_ne l hkey]
  cases hindex : Table.get? key l.current with
  | none => rfl
  | some id =>
    refine get?_retire_of_ne l ?_
    rintro rfl
    exact hid hindex

theorem currentFor_retireAll {l : Ledger} {rs : List Retirement} {key : IdentityKey}
    (h : ∀ r ∈ rs, key ≠ r.key ∧ Table.get? key l.current ≠ some r.id) :
    (l.retireAll rs).currentFor key = l.currentFor key := by
  induction rs generalizing l with
  | nil => rfl
  | cons r rs ih =>
    obtain ⟨hfirst, hrest⟩ := List.forall_mem_cons.mp h
    rw [retireAll_cons, ih, currentFor_retire hfirst.1 hfirst.2]
    rwa [index_retire_of_ne l hfirst.1]

theorem append_retire (l : Ledger) {r : Retirement} {a : Artefact} (hid : r.id ≠ a.id)
    (hkey : r.key ≠ a.key) :
    (l.retire r).append a = ((l.append a).1, (l.append a).2.retire r) := by
  simp only [append, retire, Artefact.key, Table.modify_put_of_ne hid,
    Table.erase_put_of_ne (show r.key ≠ a.envelope.key from hkey)]

/-- A commit touches neither the key nor an artefact of a retirement. -/
structure Retirement.ApartFrom (r : Retirement) (c : Commit) : Prop where
  key : r.key ≠ c.artefact.key
  new : r.id ≠ c.artefact.id
  prior : c.supersedes ≠ some r.id

theorem refile_retire (l : Ledger) {r : Retirement} {id : ArtefactId} (hid : r.id ≠ id)
    (a : Artefact) : (l.retire r).refile id a = (l.refile id a).retire r := by
  simp only [refile, retire, Table.modify_put_of_ne hid]

theorem supersedePrior_retire (l : Ledger) {r : Retirement} {id : ArtefactId} (hid : r.id ≠ id)
    (c : Commit) : (l.retire r).supersedePrior c id =
      ((l.supersedePrior c id).1, (l.supersedePrior c id).2.retire r) := by
  unfold supersedePrior
  rw [get?_retire_of_ne l (Ne.symm hid)]
  cases l.get? id with
  | none => rfl
  | some prior =>
    dsimp only
    rw [refile_retire l hid]

theorem commit_retire (l : Ledger) {r : Retirement} {c : Commit} (h : r.ApartFrom c) :
    (l.retire r).commit c = ((l.commit c).1, (l.commit c).2.retire r) := by
  obtain ⟨hkey, hnew, hprior⟩ := h
  unfold commit
  dsimp only
  rw [index_retire_of_ne l (Ne.symm hkey)]
  split
  · rfl
  · cases hsome : c.supersedes with
    | none =>
      dsimp only
      rw [append_retire l hnew hkey]
    | some id =>
      have hid : r.id ≠ id := fun hsame => hprior (hsame ▸ hsome)
      dsimp only
      rw [supersedePrior_retire l hid]
      rcases l.supersedePrior c id with ⟨e | ⟨⟩, l'⟩
      · rfl
      · dsimp only
        rw [append_retire l' (a := { c.artefact with supersedes := some id }) hnew hkey]

theorem commit_retireAll {l : Ledger} {rs : List Retirement} {c : Commit}
    (h : ∀ r ∈ rs, r.ApartFrom c) {b : Artefact} {l' : Ledger} (hok : l.commit c = (.ok b, l')) :
    (l.retireAll rs).commit c = (.ok b, l'.retireAll rs) := by
  induction rs generalizing l l' with
  | nil => exact hok
  | cons r rs ih =>
    obtain ⟨hfirst, hrest⟩ := List.forall_mem_cons.mp h
    refine ih hrest ?_
    rw [commit_retire l hfirst, hok]

theorem expire_retire {l : Ledger} {r : Retirement} {id : ArtefactId} (hid : r.id ≠ id)
    (hkey : ∀ a, l.get? id = some a → r.key ≠ a.key) (now : Instant) :
    (l.retire r).expire id now = ((l.expire id now).1, (l.expire id now).2.retire r) := by
  unfold expire
  rw [get?_retire_of_ne l (Ne.symm hid)]
  cases hget : l.get? id with
  | none => rfl
  | some a =>
    dsimp only
    rcases hexpire : a.expire now with ⟨e | ⟨⟩, b⟩
    · dsimp only
      rw [refile_retire l hid]
    · have hbkey : r.key ≠ b.key := by
        rw [(Artefact.expire_spec hexpire).record.key]
        exact hkey a hget
      have hcurrent : (if Table.get? b.key (l.retire r).current = some id then
          Table.erase b.key (l.retire r).current else (l.retire r).current) =
          Table.erase r.key (if Table.get? b.key l.current = some id then
            Table.erase b.key l.current else l.current) := by
        rw [index_retire_of_ne l (Ne.symm hbkey), apply_ite (Table.erase r.key),
          ← Table.erase_erase_comm b.key r.key]
        rfl
      dsimp only
      rw [refile_retire l hid]
      exact Prod.ext rfl
        (congrArg (fun current => { (l.refile id b).retire r with current }) hcurrent)

theorem expire_retireAll {l : Ledger} {rs : List Retirement} {id : ArtefactId} {now : Instant}
    (h : ∀ r ∈ rs, r.id ≠ id ∧ ∀ a, l.get? id = some a → r.key ≠ a.key) {b : Artefact}
    {l' : Ledger} (hok : l.expire id now = (.ok b, l')) :
    (l.retireAll rs).expire id now = (.ok b, l'.retireAll rs) := by
  induction rs generalizing l l' with
  | nil => exact hok
  | cons r rs ih =>
    obtain ⟨⟨hid, hkey⟩, hrest⟩ := List.forall_mem_cons.mp h
    refine ih ?_ ?_
    · rwa [get?_retire_of_ne l (Ne.symm hid)]
    · rw [expire_retire hid hkey, hok]

end Ledger

end CauseLists
