-- Bodies that are kept in memory, over a whole row of calls. Every call is answered with a
-- reference, the reference can be read from then on, and what it leads to is the body of the call
-- unless two bodies of the row have one digest. A body that comes again changes nothing, so there
-- are as many blobs as there were different pairs of a list type and a digest.
import CauseLists.Proofs.Ledger.Runs
import CauseLists.Proofs.Payload.Blobs
import Mathlib.Data.Finset.Card

namespace CauseLists

/-- A body that is handed in to be kept, with its envelope. -/
structure Deposit where
  envelope : Envelope
  body : Bytes
deriving DecidableEq, Repr

namespace Deposit

/-- What tells the blob of a body from others. -/
def mark (d : Deposit) : ListType × Digest := (d.envelope.listType, .ofBody d.body)

/-- No two different bodies have one digest. -/
def Apart (ds : List Deposit) : Prop :=
  ∀ d ∈ ds, ∀ d' ∈ ds, Digest.ofBody d.body = .ofBody d'.body → d.body = d'.body

instance (ds : List Deposit) : Decidable (Apart ds) :=
  inferInstanceAs (Decidable (∀ d ∈ ds, ∀ d' ∈ ds, Digest.ofBody d.body = .ofBody d'.body →
    d.body = d'.body))

end Deposit

theorem StoredBody.verify_eq_ok_iff (b : StoredBody) (bytes read : Bytes) :
    b.verify bytes = .ok read ↔ read = bytes ∧ Digest.ofBody bytes = b.digest := by
  unfold StoredBody.verify
  dsimp only
  split
  · rename_i hdigest
    rw [Except.ok.injEq]
    exact ⟨fun h => ⟨h.symm, hdigest⟩, fun h => h.1.symm⟩
  · rename_i hdigest
    constructor
    · intro h
      cases h
    · exact fun h => absurd h.2 hdigest

/-! ## Rows of calls -/

namespace Blobs

/-- The blobs after some bodies were handed in, one after another. -/
def after (blobs : Blobs) (ds : List Deposit) : Blobs :=
  ds.foldl (fun blobs d => (blobs.persist d.envelope.listType d.body).2) blobs

/-- The reference that a body is answered with. -/
def reference (d : Deposit) : StoredBody :=
  ⟨location d.envelope.listType (.ofBody d.body), .ofBody d.body, d.body.length⟩

theorem persist_of_some {blobs : Blobs} {t : ListType} {body bytes : Bytes}
    (h : Table.get? (location t (.ofBody body)) blobs = some bytes) :
    (blobs.persist t body).2 = blobs := by
  simp [persist, h]

theorem persist_of_none {blobs : Blobs} {t : ListType} {body : Bytes}
    (h : Table.get? (location t (.ofBody body)) blobs = none) :
    (blobs.persist t body).2 = blobs ++ [(location t (.ofBody body), body)] := by
  simp [persist, h, Table.put_of_get?_none]

theorem digest_of_fetch {blobs : Blobs} {b : StoredBody} {bytes : Bytes}
    (h : blobs.fetch b = .ok bytes) : Digest.ofBody bytes = b.digest := by
  unfold fetch at h
  split at h
  · obtain ⟨rfl, hdigest⟩ := (b.verify_eq_ok_iff _ _).mp h
    exact hdigest
  · cases h

/-- The blobs are those of some bodies: each stands under one location once, and there is one for
each body. -/
structure Holds (blobs : Blobs) (ds : List Deposit) : Prop where
  once : (Table.keys blobs).Nodup
  located : ∀ place, place ∈ Table.keys blobs ↔
    ∃ d ∈ ds, place = location d.envelope.listType (.ofBody d.body)
  bodies : All (fun t bytes => ∃ d ∈ ds, d.envelope.listType = t ∧ d.body = bytes) blobs

theorem holds_nil : Holds [] [] where
  once := List.nodup_nil
  located := by simp [Table.keys]
  bodies := @all_nil _

/-- One more body is held. -/
theorem Holds.persist {blobs : Blobs} {ds : List Deposit} (h : Holds blobs ds) (d : Deposit) :
    Holds (blobs.persist d.envelope.listType d.body).2 (ds ++ [d]) where
  once := by
    cases hget : Table.get? (location d.envelope.listType (.ofBody d.body)) blobs with
    | some bytes =>
      rw [persist_of_some hget]
      exact h.once
    | none =>
      rw [persist_of_none hget, ← Table.put_of_get?_none d.body hget]
      exact Table.nodup_keys_put d.body h.once
  located := by
    intro place
    simp only [List.mem_append, List.mem_singleton, or_and_right, exists_or, exists_eq_left,
      ← h.located place]
    cases hget : Table.get? (location d.envelope.listType (.ofBody d.body)) blobs with
    | some bytes =>
      rw [persist_of_some hget]
      refine (or_iff_left_of_imp ?_).symm
      rintro rfl
      by_contra hout
      rw [(Table.get?_eq_none_iff _ blobs).mpr hout] at hget
      cases hget
    | none =>
      rw [persist_of_none hget]
      simp [Table.keys]
  bodies := by
    have hmore : All (fun t bytes => ∃ x ∈ ds ++ [d], x.envelope.listType = t ∧ x.body = bytes)
        blobs := by
      intro place bytes hget
      obtain ⟨t, hplace, x, hx, hfits⟩ := h.bodies hget
      exact ⟨t, hplace, x, List.mem_append_left _ hx, hfits⟩
    exact @All.persist _ _ hmore _ _ ⟨d, by simp, rfl, rfl⟩

theorem holds_after (ds : List Deposit) : Holds (after [] ds) ds := by
  induction ds using List.reverseRecOn with
  | nil => exact holds_nil
  | append_singleton ds d ih =>
    rw [after, List.foldl_append]
    exact ih.persist d

/-- There are as many blobs as there are different list types with digests. -/
theorem Holds.length_eq {blobs : Blobs} {ds : List Deposit} (h : Holds blobs ds) :
    blobs.length = (ds.map Deposit.mark).toFinset.card := by
  have hinjective : Function.Injective (fun m : ListType × Digest => location m.1 m.2) := by
    rintro ⟨t, x⟩ ⟨t', x'⟩ hsame
    obtain ⟨rfl, rfl⟩ := location_inj hsame
    rfl
  have hkeys : (Table.keys blobs).toFinset =
      (ds.map Deposit.mark).toFinset.image (fun m => location m.1 m.2) := by
    ext place
    simp [h.located, Deposit.mark, eq_comm]
  calc blobs.length = (Table.keys blobs).length := (List.length_map _).symm
    _ = (Table.keys blobs).toFinset.card := (List.toFinset_card_of_nodup h.once).symm
    _ = _ := by rw [hkeys, Finset.card_image_of_injective _ hinjective]

/-- A body that is held already changes nothing. -/
theorem Holds.persist_again {blobs : Blobs} {ds : List Deposit} (h : Holds blobs ds) {d : Deposit}
    (hd : d ∈ ds) : blobs.persist d.envelope.listType d.body = (reference d, blobs) := by
  have hplace := (h.located _).mpr ⟨d, hd, rfl⟩
  cases hget : Table.get? (location d.envelope.listType (.ofBody d.body)) blobs with
  | none => exact absurd hplace ((Table.get?_eq_none_iff _ blobs).mp hget)
  | some bytes => exact Prod.ext rfl (persist_of_some hget)

/-- The reference to a body that is held can be read, and leads to a body with its mark. -/
theorem Holds.fetch {blobs : Blobs} {ds : List Deposit} (h : Holds blobs ds) {d : Deposit}
    (hd : d ∈ ds) : ∃ x ∈ ds, x.mark = d.mark ∧ blobs.fetch (reference d) = .ok x.body := by
  have hplace := (h.located _).mpr ⟨d, hd, rfl⟩
  have hrefers : Refers blobs d.envelope.listType (reference d) := by
    refine ⟨rfl, Option.ne_none_iff_exists'.mp ?_⟩
    intro hnone
    exact (Table.get?_eq_none_iff _ blobs).mp hnone hplace
  obtain ⟨bytes, hfetch, x, hx, htype, rfl⟩ := hrefers.fetch h.bodies
  exact ⟨x, hx, Prod.ext htype (digest_of_fetch hfetch), hfetch⟩

end Blobs

namespace PayloadStore

/-- The store after some bodies were handed in, one after another. -/
def after (s : PayloadStore) (ds : List Deposit) : PayloadStore :=
  ds.foldl (fun s d => (s.persist d.envelope d.body).2) s

/-- One of some calls to an empty store in memory was answered with a reference. -/
def Answered (ds : List Deposit) (d : Deposit) (b : StoredBody) : Prop :=
  ∃ before later, ds = before ++ d :: later ∧
    ((empty.after before).persist d.envelope d.body).1 = .ok b

theorem after_memory (blobs : Blobs) (ds : List Deposit) :
    (memory blobs).after ds = memory (blobs.after ds) := by
  induction ds generalizing blobs with
  | nil => rfl
  | cons d ds ih => exact ih _

/-- Every call is answered. -/
theorem answer_eq (before : List Deposit) (d : Deposit) :
    ((empty.after before).persist d.envelope d.body).1 = .ok (Blobs.reference d) := by
  rw [empty, after_memory]
  rfl

theorem answered_iff (ds : List Deposit) (d : Deposit) (b : StoredBody) :
    Answered ds d b ↔ d ∈ ds ∧ b = Blobs.reference d := by
  constructor
  · rintro ⟨before, later, rfl, hb⟩
    rw [answer_eq] at hb
    exact ⟨by simp, (Except.ok.inj hb).symm⟩
  · rintro ⟨hd, rfl⟩
    obtain ⟨before, later, rfl⟩ := List.append_of_mem hd
    exact ⟨before, later, rfl, answer_eq before d⟩

/-- Whatever bodies a store in memory is handed, and in whatever order: every call is answered with
a reference. From then on the reference can be read; it leads to bytes with its digest, and to the
very body if no two different bodies of the row have one digest. Two references are to one location
exactly if they agree in list type and digest. A body that comes again for its list type is
answered with the same reference and changes nothing, and so there are as many blobs as there were
different list types with digests. -/
theorem bodies_in_memory_stay_retrievable (ds : List Deposit) :
    ∃ blobs, empty.after ds = .memory blobs ∧
      blobs.length = (ds.map Deposit.mark).toFinset.card ∧
      (∀ before d later, ds = before ++ d :: later →
        ∃ b, ((empty.after before).persist d.envelope d.body).1 = .ok b) ∧
      ∀ d b, Answered ds d b →
        (∃ bytes, (empty.after ds).fetch b = .ok bytes ∧ Digest.ofBody bytes = b.digest ∧
          (Deposit.Apart ds → bytes = d.body)) ∧
        (∀ d' b', Answered ds d' b' → (b.location = b'.location ↔
          d.envelope.listType = d'.envelope.listType ∧ b.digest = b'.digest)) ∧
        ∀ envelope, envelope.listType = d.envelope.listType →
          (empty.after ds).persist envelope d.body = (.ok b, empty.after ds) := by
  have hafter : empty.after ds = .memory (Blobs.after [] ds) := after_memory [] ds
  have hholds := Blobs.holds_after ds
  refine ⟨_, hafter, hholds.length_eq, ?_, ?_⟩
  · exact fun before d _ _ => ⟨_, answer_eq before d⟩
  · intro d b hb
    obtain ⟨hd, rfl⟩ := (answered_iff ds d b).mp hb
    refine ⟨?_, ?_, ?_⟩
    · obtain ⟨x, hx, hmark, hfetch⟩ := hholds.fetch hd
      refine ⟨x.body, by rw [hafter]; exact hfetch, congrArg Prod.snd hmark, ?_⟩
      intro hapart
      exact hapart x hx d hd (congrArg Prod.snd hmark)
    · intro d' b' hb'
      obtain ⟨-, rfl⟩ := (answered_iff ds d' b').mp hb'
      constructor
      · exact Blobs.location_inj
      · rintro ⟨htype, hdigest⟩
        exact congrArg₂ Blobs.location htype hdigest
    · intro envelope htype
      rw [hafter, PayloadStore.persist, htype]
      simp only [hholds.persist_again hd]

/-! Three bodies, of which the last is the first one again, under another envelope. -/

namespace Example

def deposit (location : String) (body : Bytes) : Deposit := ⟨Ledger.Example.envelope location, body⟩

def deposits : List Deposit :=
  [deposit "123" [123, 125], deposit "123" [91, 93], deposit "9" [123, 125]]

end Example

theorem a_body_that_comes_twice_is_kept_once :
    ∃ b bytes blobs, Answered Example.deposits (Example.deposit "123" [123, 125]) b ∧
      empty.after Example.deposits = .memory blobs ∧ blobs.length = 2 ∧
      Deposit.Apart Example.deposits ∧
      (empty.after Example.deposits).fetch b = .ok bytes ∧ bytes = [123, 125] ∧
      (empty.after Example.deposits).persist (Ledger.Example.envelope "123") [123, 125] =
        (.ok b, empty.after Example.deposits) := by
  have hb : Answered Example.deposits (Example.deposit "123" [123, 125])
      (Blobs.reference (Example.deposit "123" [123, 125])) :=
    ⟨[], [Example.deposit "123" [91, 93], Example.deposit "9" [123, 125]], rfl, rfl⟩
  have hapart : Deposit.Apart Example.deposits := by decide +kernel
  obtain ⟨blobs, hafter, hcount, -, hall⟩ := bodies_in_memory_stay_retrievable Example.deposits
  obtain ⟨⟨bytes, hfetch, -, hbytes⟩, -, hagain⟩ := hall _ _ hb
  have hmarks : (Example.deposits.map Deposit.mark).toFinset.card = 2 := by decide +kernel
  exact ⟨_, bytes, blobs, hb, hafter, hcount.trans hmarks, hapart, hfetch, hbytes hapart,
    hagain _ rfl⟩

end PayloadStore

end CauseLists
