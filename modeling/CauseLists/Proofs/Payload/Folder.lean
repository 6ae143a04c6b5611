-- Bodies that are kept in a folder, when any step may fail and the program may stop after any. A
-- body is written beside its location and moved there when it is whole, and nothing else is ever
-- put where a blob belongs, so whatever is found there is the body of its name. What a broken call
-- leaves behind are folders and a staging file, and neither is in the way of another call.
import CauseLists.Proofs.Payload.Retrieval
import CauseLists.Proofs.Payload.Steps

namespace CauseLists.BlobFolder

/-- A call to keep a body, the reference that it gave out, if any, and the folder after it. The
disk takes the body in whatever pieces it likes. -/
inductive Call (f : BlobFolder) (t : ListType) (body : Bytes) :
    Option StoredBody → BlobFolder → Prop
  /-- The call came to its end, at its last step or at one that failed for a reason of its own. -/
  | ended {pieces : List Bytes} (hpieces : pieces.flatten = body) :
    Call f t body (f.keep t body pieces).1.toOption (f.keep t body pieces).2
  /-- After some of its steps, or all, another one failed, or the program stopped: the call has done
  those steps and gives out no reference. -/
  | brokenOff {pieces : List Bytes} {done : List Act} (hpieces : pieces.flatten = body)
    (hdone : done <+: f.acts t (.ofBody body) pieces) : Call f t body none (f.perform done).2

/-- Calls one after another, with the references that were given out. -/
inductive Run (start : BlobFolder) : List StoredBody → BlobFolder → Prop
  | start : Run start [] start
  | call {given : List StoredBody} {f f' : BlobFolder} {t : ListType} {body : Bytes}
    {answer : Option StoredBody} (h : Run start given f) (hcall : f.Call t body answer f') :
    Run start (given ++ answer.toList) f'

/-! ## Calls -/

/-- The reference to a body. -/
def reference (f : BlobFolder) (t : ListType) (body : Bytes) : StoredBody :=
  ⟨f.location t (.ofBody body), .ofBody body, body.length⟩

theorem isFile_eq_true_iff (d : Disk) (path : String) :
    d.isFile path = true ↔ ∃ bytes, d.read path = .ok bytes := by
  unfold Disk.isFile
  cases d.read path <;> simp

section

variable {f f' : BlobFolder} {t : ListType} {body : Bytes} {pieces : List Bytes}

/-- A body that is whole is all that the move puts where a blob belongs. -/
theorem Change.of_perform_move
    (hbody : f.disk.entry? (f.stagingPlace t (.ofBody body)) = some (.file body)) :
    f.Change (f.perform
      [.move (f.stagingLocation t (.ofBody body)) (f.location t (.ofBody body))]).2 t body := by
  rw [perform]
  split
  · exact .refl f t body
  · rename_i disk hrun
    exact .of_move hbody hrun

/-- However far a call gets, it changes no more than a call may. -/
theorem Change.of_part {done : List Act} (hpieces : pieces.flatten = body)
    (hdone : done <+: f.acts t (.ofBody body) pieces) : f.Change (f.perform done).2 t body := by
  unfold acts at hdone
  dsimp only at hdone
  split at hdone
  · obtain rfl := List.prefix_nil.mp hdone
    exact .refl f t body
  · rcases List.prefix_concat_iff.mp hdone with rfl | hbefore
    · rcases hstage : f.perform (f.stage t (.ofBody body) pieces) with ⟨e | ⟨⟩, f₁⟩
      · rw [perform_append_of_error hstage]
        exact .of_stage List.prefix_rfl hstage
      · have hchange : f.Change f₁ t body := .of_stage List.prefix_rfl hstage
        rw [perform_append_of_ok hstage, ← hchange.stagingLocation_eq, ← hchange.location_eq]
        have hbody := entry?_perform_stage hstage
        rw [hpieces] at hbody
        exact hchange.trans (.of_perform_move hbody)
    · exact .of_stage hbefore rfl

/-- Once all steps are taken, the blob of the body is there. -/
theorem read_of_perform_acts (hpieces : pieces.flatten = body)
    (h : f.perform (f.acts t (.ofBody body) pieces) = (.ok (), f')) :
    ∃ bytes, f'.disk.read (f.location t (.ofBody body)) = .ok bytes := by
  unfold acts at h
  dsimp only at h
  split at h
  · rename_i hfile
    obtain rfl := (Prod.mk.inj h).2
    exact (isFile_eq_true_iff _ _).mp hfile
  · obtain ⟨f₁, hstage, hmove⟩ := perform_append_eq_ok_iff.mp h
    have hchange : f.Change f₁ t body := .of_stage List.prefix_rfl hstage
    rw [← hchange.stagingLocation_eq, ← hchange.location_eq] at hmove
    obtain ⟨disk, hrun, hdone⟩ := perform_cons_eq_ok_iff.mp hmove
    obtain rfl := (Prod.mk.inj hdone).2
    have hbody := entry?_perform_stage hstage
    rw [hpieces] at hbody
    have hmoved : f₁.Change { f₁ with disk } t body := .of_move hbody hrun
    obtain ⟨hopen, -, bytes, -, hdisk⟩ := run_move_eq_ok_iff.mp hrun
    refine ⟨bytes, ?_⟩
    rw [← (hchange.trans hmoved).location_eq]
    refine read_location_eq_ok_iff.mpr ⟨hmoved.openTo hopen, ?_⟩
    rw [hmoved.blobPlace_eq, hdisk]
    exact Disk.entry?_set_self (by simp [blobPlace]) _

theorem keep_eq_ok_iff {b : StoredBody} : f.keep t body pieces = (.ok b, f') ↔
    f.perform (f.acts t (.ofBody body) pieces) = (.ok (), f') ∧ b = f.reference t body := by
  unfold keep
  dsimp only
  rcases f.perform (f.acts t (.ofBody body) pieces) with ⟨e | ⟨⟩, f₁⟩
  · simp
  · simp [reference, and_comm, eq_comm]

theorem keep_snd (f : BlobFolder) (t : ListType) (body : Bytes) (pieces : List Bytes) :
    (f.keep t body pieces).2 = (f.perform (f.acts t (.ofBody body) pieces)).2 := by
  unfold keep
  dsimp only
  rcases f.perform (f.acts t (.ofBody body) pieces) with ⟨e | ⟨⟩, f₁⟩ <;> rfl

/-- Whatever happens in a call, it changes no more than a call may, and a reference that it gives
out is the one to its body, whose blob is there. -/
theorem Call.spec {answer : Option StoredBody} (h : Call f t body answer f') :
    f.Change f' t body ∧ ∀ b ∈ answer, b = f.reference t body ∧
      ∃ bytes, f'.disk.read b.location = .ok bytes := by
  cases h with
  | @ended pieces hpieces =>
    constructor
    · rw [keep_snd]
      exact .of_part hpieces List.prefix_rfl
    · intro b hb
      rcases hkeep : f.keep t body pieces with ⟨e | b', f'⟩
      · rw [hkeep] at hb
        cases hb
      · rw [hkeep] at hb
        cases hb
        obtain ⟨hperform, rfl⟩ := keep_eq_ok_iff.mp hkeep
        exact ⟨rfl, read_of_perform_acts hpieces hperform⟩
  | brokenOff hpieces hdone => exact ⟨.of_part hpieces hdone, by simp⟩

end

/-! ## Runs -/

/-- What is there after some calls: blobs that are what their names say, and a blob for every
reference. -/
structure Sound (f : BlobFolder) (given : List StoredBody) : Prop where
  right : ∀ t digest bytes, f.disk.entry? (f.blobPlace t digest) = some (.file bytes) →
    Digest.ofBody bytes = digest
  there : ∀ b ∈ given, ∃ t bytes, b.location = f.location t b.digest ∧
    f.disk.read b.location = .ok bytes

theorem Sound.call {f f' : BlobFolder} {given : List StoredBody} (h : f.Sound given)
    {t : ListType} {body : Bytes} {answer : Option StoredBody} (hcall : f.Call t body answer f') :
    f'.Sound (given ++ answer.toList) := by
  obtain ⟨hchange, hanswer⟩ := hcall.spec
  constructor
  case right =>
    intro t' digest bytes hbytes
    rw [hchange.blobPlace_eq] at hbytes
    rcases hchange.files _ _ hbytes with hold | hstaging | ⟨hblob, rfl⟩
    · exact h.right t' digest bytes hold
    · exact absurd hstaging (blobPlace_ne_stagingPlace f t' t digest _)
    · exact (blobPlace_inj hblob).2.symm
  case there =>
    intro b hb
    rcases List.mem_append.mp hb with hold | hnew
    · obtain ⟨t', bytes, hlocation, hread⟩ := h.there b hold
      rw [hlocation] at hread
      obtain ⟨bytes', hread'⟩ := hchange.read hread
      have hsame : b.location = f'.location t' b.digest := by
        rw [hlocation, location, location, hchange.shelf_eq]
      exact ⟨t', bytes', hsame, hsame ▸ hread'⟩
    · obtain ⟨rfl, bytes, hread⟩ := hanswer b (Option.mem_toList.mp hnew)
      refine ⟨t, bytes, ?_, hread⟩
      rw [reference, location, location, hchange.shelf_eq]

/-- Every reference of a sound folder can be read, and leads to bytes with its digest. -/
theorem Sound.fetch {f : BlobFolder} {given : List StoredBody} (h : f.Sound given) {b : StoredBody}
    (hb : b ∈ given) : ∃ bytes, f.fetch b = .ok bytes ∧ Digest.ofBody bytes = b.digest := by
  obtain ⟨t, bytes, hlocation, hread⟩ := h.there b hb
  have hdigest : Digest.ofBody bytes = b.digest := by
    rw [hlocation] at hread
    exact h.right t b.digest bytes (read_location_eq_ok_iff.mp hread).2
  refine ⟨bytes, ?_, hdigest⟩
  rw [BlobFolder.fetch, hread]
  exact (b.verify_eq_ok_iff _ _).mpr ⟨rfl, hdigest⟩

theorem Run.sound {start f : BlobFolder} {given : List StoredBody}
    (hfiles : ∀ q content, start.place <+: q → start.disk.entry? q ≠ some (.file content))
    (h : Run start given f) : f.Sound given := by
  induction h with
  | start =>
    constructor
    case right =>
      intro t digest bytes hbytes
      exact absurd hbytes (hfiles _ _ (List.prefix_append _ _))
    case there => exact fun b hb => absurd hb List.not_mem_nil
  | call _ hcall ih => exact ih.call hcall

/-! ## Calls that meet no trouble -/

/-- The folder can be made, if it is not there, and there is nothing in it then. -/
structure CanBeMade (f : BlobFolder) : Prop where
  rooted : f.disk.Rooted f.disk.here
  made : ∃ disk, f.disk.makeFolder f.root = .ok disk ∧
    ∀ q, f.place <+: q → q ≠ f.place → disk.entry? q = none

/-- Nothing is in the way of a call: the way to the folder is clear and does not lead through the
folder itself, and in the folder there are folders, blobs and staging files at their places only. -/
structure Clear (f : BlobFolder) : Prop where
  rooted : f.disk.Rooted f.disk.here
  way : ∀ q ∈ Disk.stops (f.disk.origin f.root) (Disk.way f.root),
    ∀ content, f.disk.entry? q ≠ some (.file content)
  outside : ∀ q ∈ Disk.stops (f.disk.origin f.root) (Disk.way f.root),
    f.place <+: q → q = f.place
  shelves : ∀ (t : ListType) content, f.disk.entry? (f.place ++ [t.name]) ≠ some (.file content)
  blobs : ∀ t digest, f.disk.entry? (f.blobPlace t digest) ≠ some .folder
  staging : ∀ t digest, f.disk.entry? (f.stagingPlace t digest) ≠ some .folder

theorem rooted_origin {d : Disk} (h : d.Rooted d.here) (path : String) :
    d.Rooted (d.origin path) := by
  unfold Disk.origin
  split
  · exact d.rooted_nil
  · exact h

theorem CanBeMade.clear {f : BlobFolder} (h : f.CanBeMade) : f.Clear := by
  obtain ⟨disk, hdisk, hempty⟩ := h.made
  rw [Disk.makeFolder, Disk.foldersFor_eq] at hdisk
  have hfolders : ∀ q ∈ Disk.stops (f.disk.origin f.root) (Disk.way f.root),
      disk.entry? q = some .folder := by
    intro q hq
    obtain ⟨more, hmore⟩ := Disk.way_prefix_parts f.root
    have hmem := Disk.stops_subset_append _ _ more hq
    rw [hmore] at hmem
    exact Disk.rooted_makeFolders hdisk (rooted_origin h.rooted _) q hmem q List.prefix_rfl
  have hnone : ∀ q, f.place <+: q → q ≠ f.place → f.disk.entry? q = none := by
    intro q hbelow hne
    rcases Disk.entry?_makeFolders hdisk q with hsame | ⟨hnone, -, -⟩
    · rw [← hsame, hempty q hbelow hne]
    · exact hnone
  have hinside : ∀ names, names ≠ [] → f.disk.entry? (f.place ++ names) = none := by
    intro names hnames
    exact hnone _ (List.prefix_append _ _) (by simp [hnames])
  constructor
  case rooted => exact h.rooted
  case way =>
    intro q hq content hfile
    rcases Disk.entry?_makeFolders hdisk q with hsame | ⟨hnone, -, -⟩
    · rw [hfolders q hq, hfile] at hsame
      cases hsame
    · rw [hfile] at hnone
      cases hnone
  case outside =>
    intro q hq hbelow
    by_contra hne
    have hfolder := hfolders q hq
    rw [hempty q hbelow hne] at hfolder
    cases hfolder
  case shelves =>
    intro t content
    rw [hinside _ (by simp)]
    simp
  case blobs =>
    intro t digest
    rw [blobPlace, hinside _ (by simp)]
    simp
  case staging =>
    intro t digest
    rw [stagingPlace, hinside _ (by simp)]
    simp

namespace Clear

variable {f f' : BlobFolder} {t : ListType} {body : Bytes}

theorem append_notMem_way (h : f.Clear) {names : List String} (hnames : names ≠ []) :
    f.place ++ names ∉ Disk.stops (f.disk.origin f.root) (Disk.way f.root) := by
  intro hmem
  have hsame := h.outside _ hmem (List.prefix_append _ _)
  exact hnames (by simpa using hsame)

/-- The ways down to blobs end at the shelves. -/
theorem append_notMem_stops (h : f.Clear) (t : ListType) (a b : String) :
    f.place ++ [a, b] ∉ Disk.stops (f.disk.origin f.root) (Disk.parts (f.shelf t)) := by
  rw [stops_shelf, List.mem_append, List.mem_singleton, List.append_cancel_left_eq]
  rintro (hmem | hsame)
  · exact h.append_notMem_way (by simp) hmem
  · simp at hsame

/-- Nothing gets in the way. -/
theorem change (h : f.Clear) (hchange : f.Change f' t body) : f'.Clear where
  rooted := by
    rw [hchange.here]
    exact fun q hq => hchange.folders q (h.rooted q hq)
  way := by
    rw [hchange.origin_eq, hchange.root]
    intro q hq content hfile
    rcases hchange.files q content hfile with hold | rfl | ⟨rfl, -⟩
    · exact h.way q hq content hold
    · exact h.append_notMem_way (by simp) hq
    · exact h.append_notMem_way (by simp) hq
  outside := by
    rw [hchange.origin_eq, hchange.root, hchange.place_eq]
    exact h.outside
  shelves := by
    rw [hchange.place_eq]
    intro t' content hfile
    rcases hchange.files _ content hfile with hold | hsame | ⟨hsame, -⟩
    · exact h.shelves t' content hold
    · simp [stagingPlace] at hsame
    · simp [blobPlace] at hsame
  blobs := by
    intro t' digest hfolder
    rw [hchange.blobPlace_eq] at hfolder
    rcases hchange.made _ hfolder with hold | hmem
    · exact h.blobs t' digest hold
    · exact h.append_notMem_stops t _ _ hmem
  staging := by
    intro t' digest hfolder
    rw [hchange.stagingPlace_eq] at hfolder
    rcases hchange.made _ hfolder with hold | hmem
    · exact h.staging t' digest hold
    · exact h.append_notMem_stops t _ _ hmem

theorem exists_folders (h : f.Clear) (t : ListType) :
    ∃ disk, f.disk.makeFolders (f.disk.foldersFor (f.shelf t)) = .ok disk ∧
      BlobFolder.OpenTo { f with disk } t := by
  have hfree : ∀ q ∈ Disk.stops (f.disk.origin f.root) (Disk.parts (f.shelf t)),
      ∀ content, f.disk.entry? q ≠ some (.file content) := by
    intro q hq
    rw [stops_shelf, List.mem_append, List.mem_singleton] at hq
    rcases hq with hq | rfl
    · exact h.way q hq
    · exact h.shelves t
  obtain ⟨disk, hdisk⟩ := Disk.exists_makeFolders hfree
  have hway : Disk.way (f.shelf t) = Disk.parts (f.shelf t) := by
    rw [shelf, Disk.way_join t.isName_name, Disk.parts_join t.slash_notMem_name]
  have horigin : f.disk.origin (f.shelf t) = f.disk.origin f.root := by
    rw [shelf, Disk.origin_join t.slash_notMem_name]
  have hhere : disk.origin (f.shelf t) = f.disk.origin (f.shelf t) := by
    rw [Disk.origin, Disk.origin, Disk.here_makeFolders hdisk]
  refine ⟨disk, ?_, ?_⟩
  · rw [Disk.foldersFor_eq, horigin, hdisk]
  · change disk.Open (disk.origin (f.shelf t)) (Disk.way (f.shelf t))
    rw [hway, hhere, horigin]
    intro q hq
    exact Disk.rooted_makeFolders hdisk (rooted_origin h.rooted _) q hq q List.prefix_rfl

/-- Pieces can be written behind each other. -/
theorem exists_writes {bytes : Bytes} (hopen : f.OpenTo t)
    (hfile : f.disk.entry? (f.stagingPlace t (.ofBody body)) = some (.file bytes))
    (pieces : List Bytes) :
    ∃ f', f.perform (pieces.map (.write (f.stagingLocation t (.ofBody body)))) = (.ok (), f') ∧
      f'.OpenTo t := by
  induction pieces generalizing f bytes with
  | nil => exact ⟨f, rfl, hopen⟩
  | cons piece pieces ih =>
    have hfree : f.disk.entry? (f.stagingPlace t (.ofBody body)) ≠ some .folder := by
      simp [hfile]
    obtain ⟨f', hwrites, hopen'⟩ := ih ((Change.of_set hfree (bytes ++ piece)).openTo hopen)
      (Disk.entry?_set_self (by simp [stagingPlace]) _)
    exact ⟨f', perform_cons_eq_ok_iff.mpr
      ⟨_, run_write_eq_ok_iff.mpr ⟨hopen, bytes, hfile, rfl⟩, hwrites⟩, hopen'⟩

/-- A body can be written beside its location. -/
theorem exists_stage (h : f.Clear) (t : ListType) (body : Bytes) (pieces : List Bytes) :
    ∃ f', f.perform (f.stage t (.ofBody body) pieces) = (.ok (), f') ∧ f'.OpenTo t := by
  obtain ⟨disk, hdisk, hopen⟩ := h.exists_folders t
  have hfolders := @perform_makeFolders f (f.shelf t) _ _ hdisk
  have hpart : _ <+: f.stage t (.ofBody body) pieces := List.prefix_append _ _
  have hmade : f.Change { f with disk } t body := .of_stage hpart hfolders
  have hfree := (h.change hmade).staging t (.ofBody body)
  have hcreate := run_create_eq_ok_iff.mpr ⟨hopen, hfree, rfl⟩
  obtain ⟨f', hwrites, hopen'⟩ := exists_writes ((Change.of_set hfree []).openTo hopen)
    (Disk.entry?_set_self (by simp [stagingPlace]) _) pieces
  exact ⟨f', perform_append_eq_ok_iff.mpr
    ⟨_, hfolders, perform_cons_eq_ok_iff.mpr ⟨_, hcreate, hwrites⟩⟩, hopen'⟩

/-- A call then gives out the reference to its body. -/
theorem keep (h : f.Clear) (t : ListType) (body : Bytes) (pieces : List Bytes) :
    (f.keep t body pieces).1 = .ok (f.reference t body) := by
  obtain ⟨f', hperform⟩ :
      ∃ f', f.perform (f.acts t (.ofBody body) pieces) = (.ok (), f') := by
    unfold acts
    dsimp only
    split
    · exact ⟨f, rfl⟩
    · obtain ⟨f₁, hstage, hopen⟩ := h.exists_stage t body pieces
      have hchange : f.Change f₁ t body := .of_stage List.prefix_rfl hstage
      have hmove := run_move_eq_ok_iff.mpr
        ⟨hopen, (h.change hchange).blobs t _, _, entry?_perform_stage hstage, rfl⟩
      rw [hchange.stagingLocation_eq, hchange.location_eq] at hmove
      exact ⟨_, perform_append_eq_ok_iff.mpr
        ⟨f₁, hstage, perform_cons_eq_ok_iff.mpr ⟨_, hmove, rfl⟩⟩⟩
  rw [keep_eq_ok_iff.mpr ⟨hperform, rfl⟩]

end Clear

theorem Run.clear {start f : BlobFolder} {given : List StoredBody} (hstart : start.CanBeMade)
    (h : Run start given f) : f.Clear := by
  induction h with
  | start => exact hstart.clear
  | call _ hcall ih => exact ih.change hcall.spec.1

/-- Whatever steps of calls failed, and wherever the program was stopped: what can be read at the
location of a blob is bytes with the digest in its name; every reference that was given out can be
read, now and after whatever comes next, and leads to bytes with its digest; and if the folder
could be made to begin with, then a call whose own steps do not fail gives out the reference to its
body. -/
theorem a_broken_call_leaves_no_partial_blob {start f : BlobFolder} {given : List StoredBody}
    (hfiles : ∀ q content, start.place <+: q → start.disk.entry? q ≠ some (.file content))
    (h : Run start given f) :
    (∀ t digest bytes, f.disk.read (f.location t digest) = .ok bytes →
      Digest.ofBody bytes = digest) ∧
    (∀ b ∈ given, ∃ bytes, f.fetch b = .ok bytes ∧ Digest.ofBody bytes = b.digest) ∧
    (start.CanBeMade → ∀ t body pieces, pieces.flatten = body →
      (f.keep t body pieces).1 = .ok (f.reference t body)) := by
  have hsound := h.sound hfiles
  refine ⟨?_, ?_, ?_⟩
  · intro t digest bytes hread
    exact hsound.right t digest bytes (read_location_eq_ok_iff.mp hread).2
  · exact fun b hb => hsound.fetch hb
  · exact fun hstart t body pieces _ => (h.clear hstart).keep t body pieces

/-! A body of two bytes, of which the first call wrote only one before the program was stopped. -/

namespace Example

def empty : BlobFolder := ⟨"store", Disk.emptyAt ["home"]⟩

def daily : ListType := ⟨"DAILY_LIST", ListType.isCanonical_daily⟩

def brief : Bytes := [123, 125]

/-- The steps of a call for it, if the disk takes its bytes one by one. -/
def steps : List Act := empty.acts daily (.ofBody brief) [[123], [125]]

/-- Two folders, an empty file and one byte. -/
def torn : BlobFolder := (empty.perform (steps.take 4)).2

end Example

open Example in
theorem a_torn_body_is_kept_by_the_next_call :
    (∀ q content, empty.place <+: q → empty.disk.entry? q ≠ some (.file content)) ∧
    Run empty [] torn ∧ empty.CanBeMade ∧
    torn.disk.read (torn.stagingLocation daily (.ofBody brief)) = .ok [123] ∧
    torn.disk.isFile (torn.location daily (.ofBody brief)) = false ∧
    Run empty [torn.reference daily brief] (torn.persist daily brief).2 ∧
    ∃ bytes, (torn.persist daily brief).2.fetch (torn.reference daily brief) = .ok bytes ∧
      Digest.ofBody bytes = .ofBody brief := by
  have hentry : ∀ q, empty.disk.entry? q =
      if q = [] then some .folder else if ["home"] = q then some .folder else none := fun _ => rfl
  have hfiles : ∀ q content, empty.place <+: q → empty.disk.entry? q ≠ some (.file content) := by
    intro q content _
    rw [hentry]
    split_ifs <;> simp
  have hmade : empty.CanBeMade := by
    refine ⟨?_, empty.disk.set ["home", "store"] .folder, by decide, ?_⟩
    · exact (Disk.rooted_nil empty.disk).append_singleton
        (show empty.disk.entry? ([] ++ ["home"]) = some .folder from rfl)
    · intro q hbelow (hne : q ≠ ["home", "store"])
      have hlength : 2 ≤ q.length := hbelow.length_le
      rw [Disk.entry?_set (by decide), if_neg hne, hentry, if_neg, if_neg]
      · rintro rfl
        exact absurd hlength (by decide)
      · rintro rfl
        exact absurd hlength (by decide)
  have htear : Call empty daily brief none torn :=
    .brokenOff (show [[123], [125]].flatten = brief from rfl) (List.take_prefix 4 steps)
  have htorn : Run empty [] torn := .call .start htear
  obtain ⟨-, -, hnext⟩ := a_broken_call_leaves_no_partial_blob hfiles htorn
  have hkept : Run empty [torn.reference daily brief] (torn.persist daily brief).2 := by
    have hflat : [brief].flatten = brief := rfl
    have hagain : Call torn daily brief (torn.persist daily brief).1.toOption
        (torn.persist daily brief).2 := .ended hflat
    rw [persist, hnext hmade daily brief [brief] hflat] at hagain
    exact .call htorn hagain
  obtain ⟨-, hfetch, -⟩ := a_broken_call_leaves_no_partial_blob hfiles hkept
  exact ⟨hfiles, htorn, hmade, by decide +kernel, by decide +kernel, hkept,
    hfetch _ List.mem_cons_self⟩

end CauseLists.BlobFolder
