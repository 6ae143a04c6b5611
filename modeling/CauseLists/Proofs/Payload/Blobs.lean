-- What a store in memory holds. Every blob stands at the location of its own digest and of one list
-- type, and a location tells both, so a blob that is there already is as good as a new one. Blobs
-- are never changed, and a reference that was given out can be read ever after.
import CauseLists.Payload.Store
import CauseLists.Proofs.ListType
import CauseLists.Proofs.Tables
import CauseLists.Proofs.Text.Hexadecimal

namespace CauseLists.Blobs

/-- A part of a path ends at the first slash. -/
theorem part_inj {part part' rest rest' : List Char} (hpart : '/' ∉ part) (hpart' : '/' ∉ part')
    (h : part ++ '/' :: rest = part' ++ '/' :: rest') : part = part' ∧ rest = rest' := by
  induction part generalizing part' with
  | nil =>
    cases part' with
    | nil => exact ⟨rfl, (List.cons.inj h).2⟩
    | cons c part' => exact absurd (List.mem_cons.mpr (.inl (List.cons.inj h).1)) hpart'
  | cons c part ih =>
    cases part' with
    | nil => exact absurd (List.mem_cons.mpr (.inl (List.cons.inj h).1.symm)) hpart
    | cons c' part' =>
      obtain ⟨rfl, htail⟩ := List.cons.inj h
      obtain ⟨rfl, hrest⟩ := ih (fun hm => hpart (List.mem_cons_of_mem _ hm))
        (fun hm => hpart' (List.mem_cons_of_mem _ hm)) htail
      exact ⟨rfl, hrest⟩

/-- A location tells the list type and the digest. -/
theorem location_inj {t t' : ListType} {d d' : Digest} (h : location t d = location t' d') :
    t = t' ∧ d = d' := by
  have hchars := congrArg String.toList h
  simp only [location, blobName, String.toList_append, List.append_assoc] at hchars
  obtain ⟨hname, hrest⟩ :=
    part_inj t.slash_notMem_name t'.slash_notMem_name (List.append_cancel_left hchars)
  have hhex := String.toList_injective (List.append_cancel_right hrest)
  cases t
  cases t'
  obtain rfl := String.toList_injective hname
  exact ⟨rfl, Digest.hex_injective hhex⟩

/-! ## Keeping a body -/

/-- A blob that is there stays as it is. -/
theorem get?_persist_of_some {blobs : Blobs} {location : String} {bytes : Bytes}
    (h : Table.get? location blobs = some bytes) (t : ListType) (body : Bytes) :
    Table.get? location (blobs.persist t body).2 = some bytes := by
  unfold persist
  dsimp only
  split
  · exact h
  · rename_i hnone
    rw [Table.get?_put, if_neg]
    · exact h
    · rintro rfl
      rw [hnone] at h
      cases h

/-- The blobs after a body was kept are those from before, and perhaps one more. -/
theorem get?_of_persist {blobs : Blobs} {t : ListType} {body : Bytes} {location : String}
    {bytes : Bytes} (h : Table.get? location (blobs.persist t body).2 = some bytes) :
    Table.get? location blobs = some bytes ∨
      location = Blobs.location t (.ofBody body) ∧ bytes = body := by
  unfold persist at h
  dsimp only at h
  split at h
  · exact .inl h
  · rw [Table.get?_put] at h
    split at h
    · exact .inr ⟨‹_›, (Option.some.inj h).symm⟩
    · exact .inl h

/-- There is a blob at the location of a body that was kept. -/
theorem get?_persist_self (blobs : Blobs) (t : ListType) (body : Bytes) :
    ∃ bytes, Table.get? (location t (.ofBody body)) (blobs.persist t body).2 = some bytes := by
  unfold persist
  dsimp only
  split
  · exact ⟨_, ‹_›⟩
  · exact ⟨body, Table.get?_put_self _ _ _⟩

/-! ## What all blobs have in common -/

/-- Every blob stands where its bytes belong, under a list type for which they have a property. -/
def All (p : ListType → Bytes → Prop) (blobs : Blobs) : Prop :=
  ∀ {location bytes}, Table.get? location blobs = some bytes →
    ∃ t, location = Blobs.location t (.ofBody bytes) ∧ p t bytes

variable {p : ListType → Bytes → Prop}

theorem all_nil : All p [] := by
  intro location bytes h
  simp at h

theorem All.persist {blobs : Blobs} (h : All p blobs) {t : ListType} {body : Bytes}
    (hbody : p t body) : All p (blobs.persist t body).2 := by
  intro location bytes hget
  rcases get?_of_persist hget with hold | ⟨rfl, rfl⟩
  · exact h hold
  · exact ⟨t, rfl, hbody⟩

/-! ## References -/

/-- A reference for a list type leads to a blob. -/
def Refers (blobs : Blobs) (t : ListType) (b : StoredBody) : Prop :=
  b.location = location t b.digest ∧ ∃ bytes, Table.get? b.location blobs = some bytes

theorem refers_persist (blobs : Blobs) (t : ListType) (body : Bytes) :
    Refers (blobs.persist t body).2 t (blobs.persist t body).1 :=
  ⟨rfl, get?_persist_self blobs t body⟩

/-- References stay good. -/
theorem Refers.persist {blobs : Blobs} {t : ListType} {b : StoredBody} (h : Refers blobs t b)
    (other : ListType) (body : Bytes) : Refers (blobs.persist other body).2 t b := by
  obtain ⟨hlocation, bytes, hget⟩ := h
  exact ⟨hlocation, bytes, get?_persist_of_some hget other body⟩

/-- A reference can be read, and the bytes have the property that all blobs of its list type
have. -/
theorem Refers.fetch {blobs : Blobs} {t : ListType} {b : StoredBody} (h : Refers blobs t b)
    (hall : All p blobs) : ∃ bytes, blobs.fetch b = .ok bytes ∧ p t bytes := by
  obtain ⟨hlocation, bytes, hget⟩ := h
  obtain ⟨t', hlocation', hbytes⟩ := hall hget
  obtain ⟨rfl, hdigest⟩ := location_inj (hlocation.symm.trans hlocation')
  refine ⟨bytes, ?_, hbytes⟩
  simp [Blobs.fetch, hget, StoredBody.verify, hdigest]

end CauseLists.Blobs
