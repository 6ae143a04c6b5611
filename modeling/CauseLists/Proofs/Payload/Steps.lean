-- Single steps of keeping a body in a folder: where they are taken on the disk, when they can be
-- taken and what they change. All of them leave folders and blobs where they are, and put files
-- only where a body is written before it is moved, and a body where its blob belongs.
import CauseLists.Proofs.Disk
import CauseLists.Proofs.ListType
import CauseLists.Proofs.Text.Hexadecimal
import CauseLists.Payload.Store

namespace CauseLists

theorem ListType.isName_name (t : ListType) : Disk.IsName t.name := by
  have hdots : '.' ∉ t.name.toList := by
    intro hdot
    have := t.toNat_of_mem_name hdot
    exact absurd this (by decide)
  refine ⟨t.slash_notMem_name, ?_, ?_, ?_⟩
  · intro hempty
    have hcanonical := t.canonical
    rw [isCanonical, words, hempty] at hcanonical
    cases hcanonical
  · intro hname
    exact hdots (by simp [hname])
  · intro hname
    exact hdots (by simp [hname])

theorem isName_blobName_append (digest : Digest) {more : String} (h : '/' ∉ more.toList) :
    Disk.IsName (blobName digest ++ more) := by
  have hlength : 5 ≤ (blobName digest ++ more).toList.length := by
    simp [blobName]
    omega
  refine ⟨?_, ?_, ?_, ?_⟩
  · simp [blobName, digest.slash_notMem_hex, h]
  all_goals
    intro hname
    rw [hname] at hlength
    exact absurd hlength (by decide)

namespace BlobFolder

/-! ## Places -/

/-- The place of the folder. -/
def place (f : BlobFolder) : Place := f.disk.target f.root

/-- The place of a blob. -/
def blobPlace (f : BlobFolder) (t : ListType) (digest : Digest) : Place :=
  f.place ++ [t.name, blobName digest]

/-- The place where a blob is written. -/
def stagingPlace (f : BlobFolder) (t : ListType) (digest : Digest) : Place :=
  f.place ++ [t.name, blobName digest ++ ".partial"]

/-- There are folders all the way down to the blobs of a list type. -/
def OpenTo (f : BlobFolder) (t : ListType) : Prop := f.disk.OpenTo (f.shelf t)

theorem blobPlace_inj {f : BlobFolder} {t t' : ListType} {d d' : Digest}
    (h : f.blobPlace t d = f.blobPlace t' d') : t = t' ∧ d = d' := by
  have hnames := List.append_cancel_left h
  injection hnames with hname hrest
  injection hrest with hblob
  refine ⟨?_, ?_⟩
  · cases t
    cases t'
    cases hname
    rfl
  · have hchars := congrArg String.toList hblob
    rw [blobName, blobName, String.toList_append, String.toList_append] at hchars
    exact Digest.hex_injective (String.toList_injective (List.append_cancel_right hchars))

theorem blobPlace_ne_stagingPlace (f : BlobFolder) (t t' : ListType) (d d' : Digest) :
    f.blobPlace t d ≠ f.stagingPlace t' d' := by
  intro h
  have hnames := List.append_cancel_left h
  injection hnames with _ hrest
  injection hrest with hblob
  have hlast := congrArg (fun s => s.toList.getLast?) hblob
  simp [blobName] at hlast

variable {f : BlobFolder} {t : ListType} {digest : Digest}

theorem target_shelf_append (f : BlobFolder) (t : ListType) (name : String) :
    f.disk.target (f.shelf t) ++ [name] = f.place ++ [t.name, name] := by
  rw [shelf, Disk.target_join t.isName_name, List.append_assoc]
  rfl

theorem isName_blobName (digest : Digest) : Disk.IsName (blobName digest) := by
  have happend := isName_blobName_append digest (show _ ∉ "".toList by simp)
  rwa [String.append_empty] at happend

theorem isName_staging (digest : Digest) : Disk.IsName (blobName digest ++ ".partial") :=
  isName_blobName_append digest (by decide)

theorem stagingLocation_eq (f : BlobFolder) (t : ListType) (digest : Digest) :
    f.stagingLocation t digest = Disk.join (f.shelf t) (blobName digest ++ ".partial") :=
  Disk.join_append _ _ _

theorem read_location_eq_ok_iff {bytes : Bytes} :
    f.disk.read (f.location t digest) = .ok bytes ↔
      f.OpenTo t ∧ f.disk.entry? (f.blobPlace t digest) = some (.file bytes) := by
  rw [location, Disk.read_join_eq_ok_iff (isName_blobName digest), target_shelf_append]
  rfl

/-- The places on the way down to the blobs of a list type. -/
theorem stops_shelf (f : BlobFolder) (t : ListType) :
    Disk.stops (f.disk.origin f.root) (Disk.parts (f.shelf t)) =
      Disk.stops (f.disk.origin f.root) (Disk.way f.root) ++ [f.place ++ [t.name]] := by
  rw [shelf, Disk.parts_join t.slash_notMem_name, Disk.stops_concat, Disk.walk_concat,
    t.isName_name.turn_eq]
  rfl

/-! ## Single steps -/

theorem run_create_eq_ok_iff {disk : Disk} :
    Act.run f.disk (.create (f.stagingLocation t digest)) = .ok disk ↔
      f.OpenTo t ∧ f.disk.entry? (f.stagingPlace t digest) ≠ some .folder ∧
        disk = f.disk.set (f.stagingPlace t digest) (.file []) := by
  simp only [Act.run, stagingLocation_eq, Disk.write_join_eq_ok_iff (isName_staging digest),
    target_shelf_append]
  rfl

theorem run_write_eq_ok_iff {piece : Bytes} {disk : Disk} :
    Act.run f.disk (.write (f.stagingLocation t digest) piece) = .ok disk ↔
      f.OpenTo t ∧ ∃ bytes, f.disk.entry? (f.stagingPlace t digest) = some (.file bytes) ∧
        disk = f.disk.set (f.stagingPlace t digest) (.file (bytes ++ piece)) := by
  simp only [Act.run, stagingLocation_eq, Disk.append_join_eq_ok_iff (isName_staging digest),
    target_shelf_append]
  rfl

theorem run_move_eq_ok_iff {disk : Disk} :
    Act.run f.disk (.move (f.stagingLocation t digest) (f.location t digest)) = .ok disk ↔
      f.OpenTo t ∧ f.disk.entry? (f.blobPlace t digest) ≠ some .folder ∧
        ∃ bytes, f.disk.entry? (f.stagingPlace t digest) = some (.file bytes) ∧
          disk = (f.disk.clear (f.stagingPlace t digest)).set (f.blobPlace t digest)
            (.file bytes) := by
  simp only [Act.run, stagingLocation_eq, location,
    Disk.move_join_eq_ok_iff (isName_staging digest) (isName_blobName digest), target_shelf_append]
  rfl

/-! ## Rows of steps -/

variable {f' : BlobFolder} {acts more : List Act}

theorem perform_cons_eq_ok_iff {act : Act} : f.perform (act :: acts) = (.ok (), f') ↔
    ∃ disk, act.run f.disk = .ok disk ∧ perform { f with disk } acts = (.ok (), f') := by
  rw [perform]
  cases act.run f.disk with
  | error fault => simp
  | ok disk => simp

theorem perform_append_of_error {e : StorageError} (h : f.perform acts = (.error e, f')) :
    f.perform (acts ++ more) = (.error e, f') := by
  induction acts generalizing f with
  | nil => cases h
  | cons act acts ih =>
    rw [List.cons_append, perform]
    rw [perform] at h
    cases hrun : act.run f.disk with
    | error fault =>
      rw [hrun] at h
      exact h
    | ok disk =>
      rw [hrun] at h
      exact ih h

theorem perform_append_of_ok (h : f.perform acts = (.ok (), f')) :
    f.perform (acts ++ more) = f'.perform more := by
  induction acts generalizing f with
  | nil =>
    obtain rfl := (Prod.mk.inj h).2
    rfl
  | cons act acts ih =>
    obtain ⟨disk, hrun, hrest⟩ := perform_cons_eq_ok_iff.mp h
    rw [List.cons_append, perform, hrun]
    exact ih hrest

theorem perform_append_eq_ok_iff : f.perform (acts ++ more) = (.ok (), f') ↔
    ∃ f₁, f.perform acts = (.ok (), f₁) ∧ f₁.perform more = (.ok (), f') := by
  rcases hfirst : f.perform acts with ⟨e | ⟨⟩, f₁⟩
  · simp [perform_append_of_error hfirst]
  · simp [perform_append_of_ok hfirst]

/-- The folders for a shelf are made one after another. -/
theorem perform_makeFolders {shelf : String} {folders : List (Place × Bool)} {disk : Disk}
    (h : f.disk.makeFolders folders = .ok disk) :
    f.perform (folders.map (fun (place, isLast) => .makeFolder shelf place isLast)) =
      (.ok (), { f with disk }) := by
  induction folders generalizing f with
  | nil =>
    obtain rfl := Except.ok.inj h
    rfl
  | cons folder folders ih =>
    obtain ⟨d, hone, hmore⟩ := Disk.makeFolders_cons_eq_ok_iff.mp h
    exact perform_cons_eq_ok_iff.mpr ⟨d, hone, @ih { f with disk := d } hmore⟩

/-- Pieces that are written come one behind another. -/
theorem entry?_perform_writes {pieces : List Bytes} {bytes : Bytes}
    (hbytes : f.disk.entry? (f.stagingPlace t digest) = some (.file bytes))
    (h : f.perform (pieces.map (.write (f.stagingLocation t digest))) = (.ok (), f')) :
    f'.disk.entry? (f'.stagingPlace t digest) = some (.file (bytes ++ pieces.flatten)) := by
  induction pieces generalizing f bytes with
  | nil =>
    obtain rfl := (Prod.mk.inj h).2
    rwa [List.flatten_nil, List.append_nil]
  | cons piece pieces ih =>
    obtain ⟨disk, hrun, hrest⟩ := perform_cons_eq_ok_iff.mp h
    obtain ⟨-, bytes', hbytes', rfl⟩ := run_write_eq_ok_iff.mp hrun
    obtain rfl : bytes = bytes' := by simpa [hbytes] using hbytes'
    rw [List.flatten_cons, ← List.append_assoc]
    exact ih (Disk.entry?_set_self (by simp [stagingPlace]) _) hrest

/-! ## What a call changes -/

/-- What any part of a call to keep a body leaves as it is, and what it may change. -/
structure Change (f f' : BlobFolder) (t : ListType) (body : Bytes) : Prop where
  root : f'.root = f.root
  here : f'.disk.here = f.disk.here
  folders : ∀ q, f.disk.entry? q = some .folder → f'.disk.entry? q = some .folder
  blobs : ∀ t' digest bytes, f.disk.entry? (f.blobPlace t' digest) = some (.file bytes) →
    ∃ bytes', f'.disk.entry? (f.blobPlace t' digest) = some (.file bytes')
  files : ∀ q bytes, f'.disk.entry? q = some (.file bytes) →
    f.disk.entry? q = some (.file bytes) ∨ q = f.stagingPlace t (.ofBody body) ∨
      q = f.blobPlace t (.ofBody body) ∧ bytes = body
  made : ∀ q, f'.disk.entry? q = some .folder → f.disk.entry? q = some .folder ∨
    q ∈ Disk.stops (f.disk.origin f.root) (Disk.parts (f.shelf t))

namespace Change

variable {f f' f'' : BlobFolder} {t : ListType} {body : Bytes}

theorem refl (f : BlobFolder) (t : ListType) (body : Bytes) : Change f f t body where
  root := rfl
  here := rfl
  folders _ h := h
  blobs _ _ bytes h := ⟨bytes, h⟩
  files _ _ h := .inl h
  made _ h := .inl h

theorem origin_eq (h : Change f f' t body) : f'.disk.origin f'.root = f.disk.origin f.root := by
  rw [Disk.origin, Disk.origin, h.root, h.here]

theorem place_eq (h : Change f f' t body) : f'.place = f.place := by
  rw [place, place, Disk.target, Disk.target, h.origin_eq, h.root]

theorem shelf_eq (h : Change f f' t body) (t' : ListType) : f'.shelf t' = f.shelf t' := by
  rw [shelf, shelf, h.root]

theorem location_eq (h : Change f f' t body) (t' : ListType) (digest : Digest) :
    f'.location t' digest = f.location t' digest := by
  rw [location, location, h.shelf_eq]

theorem stagingLocation_eq (h : Change f f' t body) (t' : ListType) (digest : Digest) :
    f'.stagingLocation t' digest = f.stagingLocation t' digest := by
  rw [stagingLocation, stagingLocation, h.location_eq]

theorem blobPlace_eq (h : Change f f' t body) (t' : ListType) (digest : Digest) :
    f'.blobPlace t' digest = f.blobPlace t' digest := by
  rw [blobPlace, blobPlace, h.place_eq]

theorem stagingPlace_eq (h : Change f f' t body) (t' : ListType) (digest : Digest) :
    f'.stagingPlace t' digest = f.stagingPlace t' digest := by
  rw [stagingPlace, stagingPlace, h.place_eq]

theorem trans (h : Change f f' t body) (h' : Change f' f'' t body) : Change f f'' t body where
  root := h'.root.trans h.root
  here := h'.here.trans h.here
  folders q hq := h'.folders q (h.folders q hq)
  blobs t' digest bytes hbytes := by
    obtain ⟨bytes', hbytes'⟩ := h.blobs t' digest bytes hbytes
    rw [← h.blobPlace_eq] at hbytes' ⊢
    exact h'.blobs t' digest bytes' hbytes'
  files q bytes hq := by
    rcases h'.files q bytes hq with hq | hq
    · exact h.files q bytes hq
    · rw [h.stagingPlace_eq, h.blobPlace_eq] at hq
      exact .inr hq
  made q hq := by
    rcases h'.made q hq with hq | hq
    · exact h.made q hq
    · rw [h.origin_eq, h.shelf_eq] at hq
      exact .inr hq

theorem of_makeFolder {disk : Disk} {place : Place} {isLast : Bool}
    (hplace : place ∈ Disk.stops (f.disk.origin f.root) (Disk.parts (f.shelf t)))
    (h : f.disk.makeFolderAt place isLast = .ok disk) : Change f { f with disk } t body where
  root := rfl
  here := Disk.here_makeFolderAt h
  folders _ hq := Disk.folder_makeFolderAt h hq
  blobs t' digest bytes hbytes := by
    rcases Disk.entry?_makeFolderAt h (f.blobPlace t' digest) with hsame | ⟨hnone, -, -⟩
    · exact ⟨bytes, hsame.trans hbytes⟩
    · rw [hbytes] at hnone
      cases hnone
  files q bytes hq := by
    rcases Disk.entry?_makeFolderAt h q with hsame | ⟨-, hfolder, -⟩
    · exact .inl (hsame.symm.trans hq)
    · rw [hq] at hfolder
      cases hfolder
  made q hq := by
    rcases Disk.entry?_makeFolderAt h q with hsame | ⟨-, -, rfl⟩
    · exact .inl (hsame.symm.trans hq)
    · exact .inr hplace

/-- Whatever is written beside the location of the body. -/
theorem of_set (hfree : f.disk.entry? (f.stagingPlace t (.ofBody body)) ≠ some .folder)
    (bytes : Bytes) : Change f
      { f with disk := f.disk.set (f.stagingPlace t (.ofBody body)) (.file bytes) } t body := by
  have hentry : ∀ q, Disk.entry? (f.disk.set (f.stagingPlace t (.ofBody body)) (.file bytes)) q =
      if q = f.stagingPlace t (.ofBody body) then some (.file bytes) else f.disk.entry? q :=
    Disk.entry?_set (by simp [stagingPlace]) _
  constructor
  case root => rfl
  case here => rfl
  case folders =>
    intro q hq
    dsimp only
    rw [hentry, if_neg]
    · exact hq
    · rintro rfl
      exact hfree hq
  case blobs =>
    intro t' digest bytes' hbytes'
    dsimp only
    rw [hentry, if_neg (blobPlace_ne_stagingPlace f t' t digest _)]
    exact ⟨bytes', hbytes'⟩
  case files =>
    intro q bytes' hq
    dsimp only at hq
    rw [hentry] at hq
    split at hq
    · rename_i hplace
      exact .inr (.inl hplace)
    · exact .inl hq
  case made =>
    intro q hq
    dsimp only at hq
    rw [hentry] at hq
    split at hq
    · cases hq
    · exact .inl hq

theorem of_move {disk : Disk}
    (hbody : f.disk.entry? (f.stagingPlace t (.ofBody body)) = some (.file body))
    (h : Act.run f.disk (.move (f.stagingLocation t (.ofBody body)) (f.location t (.ofBody body))) =
      .ok disk) : Change f { f with disk } t body := by
  obtain ⟨-, hfree, bytes, hbytes, rfl⟩ := run_move_eq_ok_iff.mp h
  obtain rfl : body = bytes := by simpa [hbody] using hbytes
  have hentry : ∀ q, Disk.entry? ((f.disk.clear (f.stagingPlace t (.ofBody body))).set
      (f.blobPlace t (.ofBody body)) (.file body)) q =
        if q = f.blobPlace t (.ofBody body) then some (.file body)
        else if q = f.stagingPlace t (.ofBody body) then none else f.disk.entry? q := by
    intro q
    rw [Disk.entry?_set (by simp [blobPlace]), Disk.entry?_clear (by simp [stagingPlace])]
  constructor
  case root => rfl
  case here => rfl
  case folders =>
    intro q hq
    dsimp only
    rw [hentry, if_neg, if_neg]
    · exact hq
    · rintro rfl
      rw [hbody] at hq
      cases hq
    · rintro rfl
      exact hfree hq
  case blobs =>
    intro t' digest bytes' hbytes'
    dsimp only
    rw [hentry, if_neg (blobPlace_ne_stagingPlace f t' t digest _)]
    split
    · exact ⟨body, rfl⟩
    · exact ⟨bytes', hbytes'⟩
  case files =>
    intro q bytes' hq
    dsimp only at hq
    rw [hentry] at hq
    split at hq
    · rename_i hplace
      cases hq
      exact .inr (.inr ⟨hplace, rfl⟩)
    · split at hq
      · cases hq
      · exact .inl hq
  case made =>
    intro q hq
    dsimp only at hq
    rw [hentry] at hq
    split at hq
    · cases hq
    · split at hq
      · cases hq
      · exact .inl hq

theorem openTo (h : Change f f' t body) {t' : ListType} (hopen : f.OpenTo t') : f'.OpenTo t' := by
  unfold OpenTo Disk.OpenTo at *
  rw [h.shelf_eq, Disk.origin, h.here]
  exact hopen.mono h.folders

/-- A blob that can be read stays one. -/
theorem read (h : Change f f' t body) {t' : ListType} {digest : Digest} {bytes : Bytes}
    (hread : f.disk.read (f.location t' digest) = .ok bytes) :
    ∃ bytes', f'.disk.read (f'.location t' digest) = .ok bytes' := by
  obtain ⟨hopen, hbytes⟩ := read_location_eq_ok_iff.mp hread
  obtain ⟨bytes', hbytes'⟩ := h.blobs t' digest bytes hbytes
  rw [← h.blobPlace_eq] at hbytes'
  exact ⟨bytes', read_location_eq_ok_iff.mpr ⟨h.openTo hopen, hbytes'⟩⟩

end Change

/-! ## Before the move -/

/-- A step before the move: it makes a folder on the way, or writes beside the location. -/
inductive Act.Prepares (f : BlobFolder) (t : ListType) (digest : Digest) : Act → Prop
  | makeFolder {place : Place} {isLast : Bool}
    (hplace : place ∈ Disk.stops (f.disk.origin f.root) (Disk.parts (f.shelf t))) :
    Prepares f t digest (.makeFolder (f.shelf t) place isLast)
  | create : Prepares f t digest (.create (f.stagingLocation t digest))
  | write (piece : Bytes) : Prepares f t digest (.write (f.stagingLocation t digest) piece)

theorem Act.prepares_of_mem_stage {pieces : List Bytes} {act : Act}
    (h : act ∈ f.stage t digest pieces) : act.Prepares f t digest := by
  rcases List.mem_append.mp h with hfolder | hfile
  · obtain ⟨⟨place, isLast⟩, hmem, rfl⟩ := List.mem_map.mp hfolder
    refine .makeFolder (@Disk.mem_stops_of_mem_foldersAlong _ _ isLast _ ?_)
    rw [Disk.foldersFor_eq, shelf, Disk.origin_join t.slash_notMem_name] at hmem
    exact hmem
  · rcases List.mem_cons.mp hfile with rfl | hpiece
    · exact .create
    · obtain ⟨piece, -, rfl⟩ := List.mem_map.mp hpiece
      exact .write piece

variable {body : Bytes}

theorem Change.of_prepares {act : Act} {disk : Disk} (h : act.Prepares f t (.ofBody body))
    (hrun : act.run f.disk = .ok disk) : f.Change { f with disk } t body := by
  cases h with
  | makeFolder hplace => exact .of_makeFolder hplace hrun
  | create =>
    obtain ⟨-, hfree, rfl⟩ := run_create_eq_ok_iff.mp hrun
    exact .of_set hfree []
  | write piece =>
    obtain ⟨-, bytes, hbytes, rfl⟩ := run_write_eq_ok_iff.mp hrun
    refine .of_set ?_ (bytes ++ piece)
    simp [hbytes]

theorem Act.Prepares.change {act : Act} (h : act.Prepares f t digest)
    (hchange : f.Change f' t body) : act.Prepares f' t digest := by
  have hstaging := hchange.stagingLocation_eq t digest
  cases h with
  | makeFolder hplace =>
    rw [← hchange.shelf_eq]
    refine .makeFolder ?_
    rwa [hchange.origin_eq, hchange.shelf_eq]
  | create => exact hstaging.symm ▸ .create
  | write piece => exact hstaging.symm ▸ .write piece

theorem Change.of_perform (h : ∀ act ∈ acts, act.Prepares f t (.ofBody body)) :
    f.Change (f.perform acts).2 t body := by
  induction acts generalizing f with
  | nil => exact .refl f t body
  | cons act acts ih =>
    obtain ⟨hfirst, hrest⟩ := List.forall_mem_cons.mp h
    rw [perform]
    cases hrun : act.run f.disk with
    | error fault => exact .refl f t body
    | ok disk =>
      have hchange : f.Change { f with disk } t body := .of_prepares hfirst hrun
      exact hchange.trans (ih (fun act hact => (hrest act hact).change hchange))

/-- Before the move a call changes no more than a call may, wherever it ends. -/
theorem Change.of_stage {pieces : List Bytes} {result : Except StorageError Unit}
    (hpart : acts <+: f.stage t (.ofBody body) pieces) (h : f.perform acts = (result, f')) :
    f.Change f' t body := by
  have hchange := @Change.of_perform f t acts body
    (fun _ hact => Act.prepares_of_mem_stage (hpart.subset hact))
  rwa [h] at hchange

/-- What is written beside the location is all of the pieces. -/
theorem entry?_perform_stage {pieces : List Bytes}
    (h : f.perform (f.stage t (.ofBody body) pieces) = (.ok (), f')) :
    f'.disk.entry? (f'.stagingPlace t (.ofBody body)) = some (.file pieces.flatten) := by
  obtain ⟨f₁, hfolders, hfile⟩ := perform_append_eq_ok_iff.mp h
  have hpart : _ <+: f.stage t (.ofBody body) pieces := List.prefix_append _ _
  have hchange : f.Change f₁ t body := .of_stage hpart hfolders
  rw [← hchange.stagingLocation_eq] at hfile
  obtain ⟨disk, hcreate, hwrites⟩ := perform_cons_eq_ok_iff.mp hfile
  obtain ⟨-, -, rfl⟩ := run_create_eq_ok_iff.mp hcreate
  have hempty : Disk.entry? (f₁.disk.set (f₁.stagingPlace t (.ofBody body)) (.file []))
      (f₁.stagingPlace t (.ofBody body)) = some (.file []) :=
    Disk.entry?_set_self (by simp [stagingPlace]) _
  exact entry?_perform_writes hempty hwrites

end BlobFolder

end CauseLists
