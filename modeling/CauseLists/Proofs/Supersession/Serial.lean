-- Critical sections serialise. Beside the archive that the workers share goes another one, in which
-- the sections that are through were run one after another. The two differ only by the expiries of
-- the commits that have made room and are not through yet; these commute with everything that is
-- done under other keys, and under their own key nothing else is done.
import CauseLists.Proofs.Supersession.Alone

namespace CauseLists

variable {ε : Type}

/-! ## What workers know -/

/-- The candidate of an expiry is an artefact of the ledger, and its window has ended. -/
def Section.Known (l : Ledger) : Section → Prop
  | .commit _ _ _ => True
  | .expiry candidate now =>
    candidate.hasEnded now = true ∧ ∃ a, l.get? candidate.id = some a ∧ a.SameRecord candidate

/-- What a worker has seen under its key is what a ledger says that has none of its changes. -/
inductive Worker.Knows (l : Ledger) : Worker → Prop
  | asking {work : Section} (hwork : work.Known l) : Knows l ⟨work, .asking⟩
  | refused {work : Section} : Knows l ⟨work, .refused⟩
  | entered {work : Section} {lock : Nat} (hwork : work.Known l) : Knows l ⟨work, .entered lock⟩
  | looked {work : Section} {lock : Nat} {found : Option Artefact} (hwork : work.Known l)
    (hfound : l.currentFor work.key = found) : Knows l ⟨work, .looked lock found⟩
  | cleared {envelope : Envelope} {body : Bytes} {now : Instant} {lock : Nat}
    {existing : Option Artefact} {expired : Option ArtefactId}
    (hroom : l.room envelope.key now = (existing, expired)) :
    Knows l ⟨.commit envelope body now, .cleared lock existing expired⟩
  | kept {envelope : Envelope} {body : Bytes} {now : Instant} {lock : Nat}
    {existing : Option Artefact} {expired : Option ArtefactId} {stored : StoredBody}
    (hroom : l.room envelope.key now = (existing, expired)) :
    Knows l ⟨.commit envelope body now, .kept lock existing expired stored⟩
  | settled {work : Section} {lock : Nat} {outcome : Section.Outcome} :
    Knows l ⟨work, .settled lock outcome⟩
  | left {work : Section} {outcome : Section.Outcome} : Knows l ⟨work, .left outcome⟩

/-- The expiry that made room for a section. -/
def Section.retirements (expired : Option ArtefactId) : Section → List Ledger.Retirement
  | .commit envelope _ now => Ledger.retirements envelope.key now expired
  | .expiry _ _ => []

/-- The expiry that a worker has carried out although it is not through yet. -/
def Worker.pending (w : Worker) : List Ledger.Retirement :=
  match w.stage with
  | .cleared _ _ expired => w.work.retirements expired
  | .kept _ _ expired _ => w.work.retirements expired
  | _ => []

theorem Section.Known.change {l l' : Ledger} {key : IdentityKey} {work : Section}
    (h : work.Known l) (hchange : l.ChangesUnder key l') : work.Known l' := by
  cases work with
  | commit _ _ _ => trivial
  | expiry candidate now =>
    obtain ⟨hended, a, ha, hsame⟩ := h
    obtain ⟨a', ha', hsame'⟩ := hchange.records ha
    exact ⟨hended, a', ha', hsame'.symm.trans hsame⟩

/-- A change under a key does not touch what those know who hold the locks of other keys. -/
theorem Worker.Knows.change {l l' : Ledger} {key : IdentityKey} {w : Worker} (h : w.Knows l)
    (hchange : l.ChangesUnder key l') (hother : ∀ g ∈ w.holds, g.key ≠ key) : w.Knows l' := by
  cases h with
  | asking hwork => exact .asking (hwork.change hchange)
  | refused => exact .refused
  | entered hwork => exact .entered (hwork.change hchange)
  | looked hwork hfound =>
    have hne := hother _ (List.mem_singleton_self _)
    exact .looked (hwork.change hchange) ((hchange.elsewhere _ hne).trans hfound)
  | cleared hroom =>
    have hne := hother _ (List.mem_singleton_self _)
    exact .cleared ((Ledger.room_congr (hchange.elsewhere _ hne)).trans hroom)
  | kept hroom =>
    have hne := hother _ (List.mem_singleton_self _)
    exact .kept ((Ledger.room_congr (hchange.elsewhere _ hne)).trans hroom)
  | settled => exact .settled
  | left => exact .left

/-! ## Expiries that are ahead -/

namespace Ledger

/-- The artefact of a retirement is current under its key. -/
def Retirement.Due (l : Ledger) (r : Retirement) : Prop :=
  ∃ p, l.currentFor r.key = some p ∧ p.id = r.id

variable {l : Ledger} {r s : Retirement}

/-- No other key has it. -/
theorem Retirement.Due.index_ne (h : r.Due l) (hl : l.Coherent) {key : IdentityKey}
    (hkey : key ≠ r.key) : Table.get? key l.current ≠ some r.id := by
  intro hindex
  obtain ⟨p, hp, hid⟩ := h
  obtain ⟨-, hget, hpkey, -⟩ := hl.currentFor_eq_some hp
  obtain ⟨a, ha, hakey, -⟩ := (hl.indexed key r.id).mp hindex
  rw [← hid, hget] at ha
  obtain rfl := Option.some.inj ha
  exact hkey (hakey.symm.trans hpkey)

/-- It stays so while things change under other keys. -/
theorem Retirement.Due.change (h : r.Due l) {l' : Ledger} {key : IdentityKey}
    (hchange : l.ChangesUnder key l') (hkey : r.key ≠ key) : r.Due l' := by
  obtain ⟨p, hp, hid⟩ := h
  exact ⟨p, (hchange.elsewhere r.key hkey).trans hp, hid⟩

theorem Retirement.Due.apart (hr : r.Due l) (hs : s.Due l) (hl : l.Coherent)
    (hkey : r.key ≠ s.key) : r.Apart s := by
  refine ⟨?_, hkey⟩
  intro hid
  obtain ⟨p, hp, hpid⟩ := hr
  refine hs.index_ne hl hkey ?_
  rw [(hl.currentFor_eq_some hp).1, hpid, hid]

/-- Room is made by an expiry that is due. -/
theorem due_of_room {key : IdentityKey} {now : Instant} {existing : Option Artefact}
    {expired : Option ArtefactId} (hroom : l.room key now = (existing, expired))
    (hr : r ∈ retirements key now expired) : r.key = key ∧ r.Due l := by
  cases expired with
  | none => cases hr
  | some id =>
    obtain rfl := List.mem_singleton.mp hr
    refine ⟨rfl, ?_⟩
    unfold room at hroom
    show ∃ p, l.currentFor key = some p ∧ p.id = id
    cases hp : l.currentFor key with
    | none =>
      rw [hp] at hroom
      cases hroom
    | some p =>
      rw [hp] at hroom
      refine ⟨p, rfl, ?_⟩
      dsimp only at hroom
      split at hroom
      · exact Option.some.inj (Prod.mk.inj hroom).2
      · cases hroom

end Ledger

/-- Who is ahead with an expiry holds the lock of its key. -/
theorem Worker.Knows.pending {l : Ledger} {w : Worker} (h : w.Knows l) {r : Ledger.Retirement}
    (hr : r ∈ w.pending) : r.Due l ∧ ∃ g ∈ w.holds, g.key = r.key := by
  cases h with
  | cleared hroom =>
    obtain ⟨hkey, hdue⟩ := Ledger.due_of_room hroom hr
    exact ⟨hdue, _, List.mem_singleton_self _, hkey.symm⟩
  | kept hroom =>
    obtain ⟨hkey, hdue⟩ := Ledger.due_of_room hroom hr
    exact ⟨hdue, _, List.mem_singleton_self _, hkey.symm⟩
  | asking _ => cases hr
  | refused => cases hr
  | entered _ => cases hr
  | looked _ _ => cases hr
  | settled => cases hr
  | left => cases hr

theorem Worker.pending_pairwise (w : Worker) : w.pending.Pairwise Ledger.Retirement.Apart := by
  have hone : ∀ expired, (w.work.retirements expired).Pairwise Ledger.Retirement.Apart := by
    intro expired
    cases w.work with
    | commit _ _ _ => cases expired <;> simp [Section.retirements, Ledger.retirements]
    | expiry _ _ => exact .nil
  unfold Worker.pending
  split
  · exact hone _
  · exact hone _
  · exact .nil

/-! ## The serial archive -/

/-- An archive in which the sections that are through were run one after another, beside the
archive that the workers share. -/
structure Traffic.Shadow (timeout : Nat) (a : Archive ε) (s : Traffic ε)
    (records : List Section.Record) (b : Archive ε) : Prop where
  serial : OneByOne timeout a records b
  done : records.Perm (s.workers.flatMap Worker.done)
  quiet : b.Quiet
  ids : s.archive.ids = b.ids
  ledger : s.archive.ledger = b.ledger.retireAll (s.workers.flatMap Worker.pending)
  locks : s.archive.locks.HeldBy (s.workers.flatMap Worker.holds)
  knows : ∀ w ∈ s.workers, w.Knows b.ledger

namespace Traffic.Shadow

variable {timeout : Nat} {a b c c' : Archive ε} {records : List Section.Record} {w w' : Worker}
  {workers rest : List Worker}

/-- Two workers do not hold the lock of one key. -/
theorem holds_pairwise (h : Shadow timeout a ⟨c, workers⟩ records b) :
    workers.Pairwise (fun w u => ∀ g ∈ w.holds, ∀ g' ∈ u.holds, g.key ≠ g'.key) :=
  (List.pairwise_flatMap.mp (List.pairwise_map.mp h.locks.keys)).2

theorem pending_pairwise (h : Shadow timeout a ⟨c, workers⟩ records b) :
    (workers.flatMap Worker.pending).Pairwise Ledger.Retirement.Apart := by
  refine List.pairwise_flatMap.mpr ⟨fun w _ => w.pending_pairwise, ?_⟩
  refine h.holds_pairwise.imp_of_mem ?_
  intro w u hw hu hkeys r hr s hs
  obtain ⟨hrdue, g, hg, hgkey⟩ := (h.knows w hw).pending hr
  obtain ⟨hsdue, g', hg', hgkey'⟩ := (h.knows u hu).pending hs
  exact hrdue.apart hsdue h.quiet.ledger (hgkey ▸ hgkey' ▸ hkeys g hg g' hg')

/-- The workers may stand in any order. -/
theorem perm (h : Shadow timeout a ⟨c, workers⟩ records b) {workers' : List Worker}
    (hperm : workers.Perm workers') : Shadow timeout a ⟨c, workers'⟩ records b where
  serial := h.serial
  done := h.done.trans (hperm.flatMap_right _)
  quiet := h.quiet
  ids := h.ids
  ledger := h.ledger.trans
    (Ledger.retireAll_perm (hperm.flatMap_right _) h.pending_pairwise b.ledger)
  locks := h.locks.perm (hperm.flatMap_right _)
  knows := fun w hw => h.knows w (hperm.mem_iff.mpr hw)

/-- The others hold other locks. -/
theorem others (h : Shadow timeout a ⟨c, w :: rest⟩ records b) {lock : Nat}
    (hlock : w.stage.lock? = some lock) :
    ∀ u ∈ rest, ∀ g ∈ u.holds, g.key ≠ w.work.key := by
  intro u hu g hg
  have hmine : ⟨w.work.key, lock⟩ ∈ w.holds := by simp [Worker.holds, hlock]
  exact Ne.symm ((List.pairwise_cons.mp h.holds_pairwise).1 u hu _ hmine g hg)

/-- What the others are ahead with has to do with other keys. -/
theorem others_pending (h : Shadow timeout a ⟨c, w :: rest⟩ records b) {lock : Nat}
    (hlock : w.stage.lock? = some lock) :
    ∀ r ∈ rest.flatMap Worker.pending, r.key ≠ w.work.key ∧ r.Due b.ledger := by
  intro r hr
  obtain ⟨u, hu, hr⟩ := List.mem_flatMap.mp hr
  obtain ⟨hdue, g, hg, hkey⟩ := (h.knows u (List.mem_cons_of_mem w hu)).pending hr
  exact ⟨hkey ▸ h.others hlock u hu g hg, hdue⟩

/-! ## Steps -/

/-- A step that brings no section to its end leaves the serial archive as it is. -/
theorem unsettled (h : Shadow timeout a ⟨c, w :: rest⟩ records b) (hdone : w'.done = w.done)
    (hids : c'.ids = c.ids)
    (hledger : c'.ledger = b.ledger.retireAll (w'.pending ++ rest.flatMap Worker.pending))
    (hlocks : c'.locks.HeldBy (w'.holds ++ rest.flatMap Worker.holds))
    (hknows : w'.Knows b.ledger) : Shadow timeout a ⟨c', w' :: rest⟩ records b where
  serial := h.serial
  done := by
    rw [List.flatMap_cons, hdone]
    exact h.done
  quiet := h.quiet
  ids := hids.trans h.ids
  ledger := hledger
  locks := hlocks
  knows := List.forall_mem_cons.mpr ⟨hknows, (List.forall_mem_cons.mp h.knows).2⟩

/-- A step that brings a section to its end is one section more in the serial archive. -/
theorem settle (h : Shadow timeout a ⟨c, w :: rest⟩ records b) {lock : Nat}
    (hlock : w.stage.lock? = some lock) (hopen : w.stage.outcome? = none)
    {outcome : Section.Outcome} {b' : Archive ε}
    (hruns : Section.RunsAlone timeout b (w.work, outcome) b') (hquiet : b'.Quiet)
    (hchange : b.ledger.ChangesUnder w.work.key b'.ledger) (hids : c'.ids = b'.ids)
    (hledger : c'.ledger = b'.ledger.retireAll (rest.flatMap Worker.pending))
    (hlocks : c'.locks = c.locks) :
    Shadow timeout a ⟨c', ⟨w.work, .settled lock outcome⟩ :: rest⟩
      (records ++ [(w.work, outcome)]) b' where
  serial := h.serial.next hruns
  done := by
    have hbefore : records.Perm (rest.flatMap Worker.done) := by
      simpa [Worker.done, hopen] using h.done
    exact (List.perm_append_singleton _ _).trans (hbefore.cons _)
  quiet := hquiet
  ids := hids
  ledger := hledger
  locks := by
    have hheld := h.locks
    simp only [List.flatMap_cons, Worker.holds, hlock] at hheld
    rw [hlocks]
    exact hheld
  knows := by
    refine List.forall_mem_cons.mpr ⟨.settled, ?_⟩
    intro u hu
    exact (h.knows u (List.mem_cons_of_mem w hu)).change hchange (h.others hlock u hu)

end Traffic.Shadow

end CauseLists
