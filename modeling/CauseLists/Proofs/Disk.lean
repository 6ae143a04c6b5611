-- Ways through a disk. A path is walked part by part, whatever stands there; following it asks that
-- there is a folder before each part, and making folders along it puts one where nothing stands.
-- No step of a program takes a folder away, so a way that is open stays open.
import CauseLists.Disk
import CauseLists.Proofs.Results
import CauseLists.Proofs.Tables

namespace CauseLists.Disk

/-! ## Entries -/

@[simp] theorem entry?_nil (d : Disk) : d.entry? [] = some .folder := rfl

theorem entry?_set {d : Disk} {place : Place} (hplace : place ≠ []) (entry : DiskEntry)
    (q : Place) :
    Disk.entry? (d.set place entry) q = if q = place then some entry else d.entry? q := by
  unfold entry? set
  rw [Table.get?_put]
  by_cases hq : q = []
  · rw [if_pos hq, if_neg (by rintro rfl; exact hplace hq), if_pos hq]
  · rw [if_neg hq, if_neg hq]

theorem entry?_set_self {d : Disk} {place : Place} (hplace : place ≠ []) (entry : DiskEntry) :
    Disk.entry? (d.set place entry) place = some entry := by
  rw [entry?_set hplace, if_pos rfl]

theorem entry?_clear {d : Disk} {place : Place} (hplace : place ≠ []) (q : Place) :
    Disk.entry? (d.clear place) q = if q = place then none else d.entry? q := by
  unfold entry? clear
  rw [Table.get?_erase]
  by_cases hq : q = []
  · rw [if_pos hq, if_neg (by rintro rfl; exact hplace hq), if_pos hq]
  · rw [if_neg hq, if_neg hq]

/-! ## Walking -/

/-- Where one part of a path leads from a place. -/
def turn (place : Place) (part : List Char) : Place :=
  if part = [] ∨ part = ['.'] then place
  else if part = ['.', '.'] then place.dropLast
  else place ++ [String.ofList part]

/-- Where parts of a path lead from a place. -/
def walk (place : Place) (parts : List (List Char)) : Place := parts.foldl turn place

/-- The folder that a path is seen from. -/
def origin (d : Disk) (path : String) : Place :=
  if path.toList.head? = some '/' then [] else d.here

/-- The places on a way along parts of a path, the one that it begins at included. -/
def stops (place : Place) : List (List Char) → List Place
  | [] => [place]
  | part :: rest => place :: stops (turn place part) rest

/-- There are folders all the way along parts of a path. -/
def Open (d : Disk) (place : Place) (parts : List (List Char)) : Prop :=
  ∀ q ∈ stops place parts, d.entry? q = some .folder

theorem walk_concat (place : Place) (parts : List (List Char)) (last : List Char) :
    walk place (parts ++ [last]) = turn (walk place parts) last := by
  rw [walk, List.foldl_append, walk]
  rfl

theorem start_mem_stops (place : Place) (parts : List (List Char)) :
    place ∈ stops place parts := by
  cases parts <;> simp [stops]

theorem stops_subset_append (place : Place) (parts more : List (List Char)) :
    stops place parts ⊆ stops place (parts ++ more) := by
  induction parts generalizing place with
  | nil => cases more <;> simp [stops]
  | cons part rest ih => exact List.cons_subset_cons _ (ih _)

theorem stops_concat (place : Place) (parts : List (List Char)) (last : List Char) :
    stops place (parts ++ [last]) = stops place parts ++ [walk place (parts ++ [last])] := by
  induction parts generalizing place with
  | nil => rfl
  | cons part rest ih => exact congrArg (List.cons place) (ih _)

/-- A place is a folder, and it stands in folders alone. -/
def Rooted (d : Disk) (place : Place) : Prop := ∀ q, q <+: place → d.entry? q = some .folder

theorem rooted_nil (d : Disk) : d.Rooted [] := by
  intro q hq
  rw [List.prefix_nil.mp hq, entry?_nil]

theorem Rooted.dropLast {d : Disk} {place : Place} (h : d.Rooted place) : d.Rooted place.dropLast :=
  fun q hq => h q (hq.trans (List.dropLast_prefix place))

theorem Rooted.append_singleton {d : Disk} {place : Place} {name : String} (h : d.Rooted place)
    (hname : d.entry? (place ++ [name]) = some .folder) : d.Rooted (place ++ [name]) := by
  intro q hq
  rcases List.prefix_concat_iff.mp hq with rfl | hq
  · exact hname
  · exact h q hq

theorem open_cons {d : Disk} {place : Place} {part : List Char} {rest : List (List Char)} :
    d.Open place (part :: rest) ↔
      d.entry? place = some .folder ∧ d.Open (turn place part) rest :=
  List.forall_mem_cons

theorem open_nil {d : Disk} {place : Place} : d.Open place [] ↔ d.entry? place = some .folder :=
  List.forall_mem_singleton

/-- A way stays open as long as no folder goes. -/
theorem Open.mono {d d' : Disk} {place : Place} {parts : List (List Char)}
    (hfolders : ∀ q, d.entry? q = some .folder → d'.entry? q = some .folder)
    (h : d.Open place parts) : d'.Open place parts :=
  fun q hq => hfolders q (h q hq)

/-! ## Following -/

theorem follow_cons (d : Disk) (place : Place) (part : List Char) (rest : List (List Char))
    (hplace : d.entry? place = some .folder) :
    d.follow place (part :: rest) = d.follow (turn place part) rest := by
  rw [follow, hplace, turn]
  dsimp only
  split
  · rfl
  · split
    · rfl
    · rfl

/-- Parts of a path can be followed up to the last exactly if there are folders all the way. -/
theorem follow_concat_eq_ok_iff {d : Disk} {place q : Place} {parts : List (List Char)}
    {last : List Char} :
    d.follow place (parts ++ [last]) = .ok q ↔
      d.Open place parts ∧ q = turn (walk place parts) last := by
  induction parts generalizing place with
  | nil =>
    rw [open_nil, List.nil_append]
    cases hplace : d.entry? place with
    | none => simp [follow, hplace]
    | some entry =>
      cases entry with
      | file content => simp [follow, hplace]
      | folder =>
        rw [follow_cons _ _ _ _ hplace, follow, Except.ok.injEq]
        simp [walk, eq_comm]
  | cons part rest ih =>
    rw [open_cons, List.cons_append]
    cases hplace : d.entry? place with
    | none => simp [follow, hplace]
    | some entry =>
      cases entry with
      | file content => simp [follow, hplace]
      | folder =>
        rw [follow_cons _ _ _ _ hplace, ih]
        simp [walk]

/-- The first part of a path that is seen from the working folder is empty only if the whole path
is. -/
theorem parts_cases (path : String) :
    (path.toList.head? = some '/' ∧ ∃ part rest, parts path = [] :: part :: rest) ∨
      path.toList.head? ≠ some '/' ∧
        (path = "" ∧ parts path = [[]] ∨ ∃ c name rest, parts path = (c :: name) :: rest) := by
  unfold parts
  cases hpath : path.toList with
  | nil => exact .inr ⟨by simp, .inl ⟨by simpa using hpath, rfl⟩⟩
  | cons c rest =>
    obtain ⟨part, more, hparts⟩ := List.exists_cons_of_ne_nil (List.splitOn_ne_nil '/' rest)
    rw [List.splitOn_cons_eq_if_modifyHead, hparts]
    by_cases hc : c = '/'
    · exact .inl ⟨by rw [hc]; rfl, part, more, by simp [hc]⟩
    · exact .inr ⟨by simpa using hc, .inr ⟨c, part, more, by simp [hc]⟩⟩

/-- A path is located by its parts, from the folder that it is seen from. -/
theorem locate_eq (d : Disk) {path : String} (h : path ≠ "") :
    d.locate path = d.follow (d.origin path) (parts path) := by
  rcases parts_cases path with
    ⟨hhead, part, rest, hparts⟩ | ⟨hhead, ⟨hempty, -⟩ | ⟨c, name, rest, hparts⟩⟩
  · rw [origin, if_pos hhead, locate, hparts]
    exact (follow_cons d [] [] (part :: rest) rfl).symm
  · exact absurd hempty h
  · rw [origin, if_neg hhead, locate, hparts]

/-- The folders for a path are those along its parts, from the folder that it is seen from. -/
theorem foldersFor_eq (d : Disk) (path : String) :
    d.foldersFor path = foldersAlong (d.origin path) (parts path) := by
  rcases parts_cases path with
    ⟨hhead, part, rest, hparts⟩ | ⟨hhead, ⟨-, hparts⟩ | ⟨c, name, rest, hparts⟩⟩
  · rw [origin, if_pos hhead, foldersFor, hparts]
    rfl
  · rw [origin, if_neg hhead, foldersFor, hparts]
    rfl
  · rw [origin, if_neg hhead, foldersFor, hparts]

/-! ## Making one folder -/

section

variable {d d' : Disk} {place q : Place} {isLast : Bool}

/-- A folder is there already, or it is made where nothing stands. -/
theorem makeFolderAt_eq_ok_iff :
    d.makeFolderAt place isLast = .ok d' ↔ d.entry? place = some .folder ∧ d' = d ∨
      d.entry? place = none ∧ d' = d.set place .folder := by
  unfold makeFolderAt
  split
  all_goals
    rename_i hentry
    simp [hentry, eq_comm]

theorem here_makeFolderAt (h : d.makeFolderAt place isLast = .ok d') : d'.here = d.here := by
  rcases makeFolderAt_eq_ok_iff.mp h with ⟨-, rfl⟩ | ⟨-, rfl⟩
  · rfl
  · rfl

theorem entry?_makeFolderAt (h : d.makeFolderAt place isLast = .ok d') (q : Place) :
    d'.entry? q = d.entry? q ∨
      d.entry? q = none ∧ d'.entry? q = some .folder ∧ q = place := by
  rcases makeFolderAt_eq_ok_iff.mp h with ⟨-, rfl⟩ | ⟨hnone, rfl⟩
  · exact .inl rfl
  · have hplace : place ≠ [] := by
      rintro rfl
      cases hnone
    rw [entry?_set hplace]
    split
    · rename_i hq
      exact .inr ⟨hq ▸ hnone, rfl, hq⟩
    · exact .inl rfl

theorem folder_makeFolderAt (h : d.makeFolderAt place isLast = .ok d')
    (hq : d.entry? q = some .folder) : d'.entry? q = some .folder := by
  rcases entry?_makeFolderAt h q with hsame | ⟨hnone, -, -⟩
  · rw [hsame, hq]
  · rw [hq] at hnone
    cases hnone

/-- What was made is there. -/
theorem entry?_makeFolderAt_self (h : d.makeFolderAt place isLast = .ok d') :
    d'.entry? place = some .folder := by
  rcases makeFolderAt_eq_ok_iff.mp h with ⟨hfolder, rfl⟩ | ⟨hnone, rfl⟩
  · exact hfolder
  · have hplace : place ≠ [] := by
      rintro rfl
      cases hnone
    exact entry?_set_self hplace _

theorem exists_makeFolderAt (hfree : ∀ content, d.entry? place ≠ some (.file content))
    (isLast : Bool) : ∃ d', d.makeFolderAt place isLast = .ok d' := by
  unfold makeFolderAt
  split
  · exact ⟨d, rfl⟩
  · rename_i content hfile
    exact absurd hfile (hfree content)
  · exact ⟨_, rfl⟩

end

/-! ## Making folders -/

theorem makeFolders_cons_eq_ok_iff {d d' : Disk} {place : Place} {isLast : Bool}
    {folders : List (Place × Bool)} : d.makeFolders ((place, isLast) :: folders) = .ok d' ↔
      ∃ d₁, d.makeFolderAt place isLast = .ok d₁ ∧ d₁.makeFolders folders = .ok d' := by
  unfold makeFolders
  rw [List.foldlM_cons, bind_eq_ok_iff]

theorem foldersAlong_cons (place : Place) (part : List Char) (rest : List (List Char)) :
    (turn place part <+: place ∧
        foldersAlong place (part :: rest) = foldersAlong (turn place part) rest) ∨
      turn place part = place ++ [String.ofList part] ∧
        foldersAlong place (part :: rest) =
          (turn place part, rest.isEmpty) :: foldersAlong (turn place part) rest := by
  unfold turn
  rw [foldersAlong]
  split
  · exact .inl ⟨List.prefix_rfl, rfl⟩
  · split
    · exact .inl ⟨List.dropLast_prefix place, rfl⟩
    · exact .inr ⟨rfl, rfl⟩

/-- The folders along parts of a path lie on the way. -/
theorem mem_stops_of_mem_foldersAlong {place q : Place} {isLast : Bool} {parts : List (List Char)}
    (h : (q, isLast) ∈ foldersAlong place parts) : q ∈ stops place parts := by
  induction parts generalizing place with
  | nil => cases h
  | cons part rest ih =>
    refine List.mem_cons_of_mem _ ?_
    rcases foldersAlong_cons place part rest with ⟨-, hnext⟩ | ⟨-, hnext⟩
    · exact ih (hnext ▸ h)
    · rw [hnext] at h
      rcases List.mem_cons.mp h with hfirst | hlater
      · rw [(Prod.mk.inj hfirst).1]
        exact start_mem_stops _ _
      · exact ih hlater

/-- Folders are made where nothing stood, and no others than are listed. -/
theorem entry?_of_makeFolders {d d' : Disk} {folders : List (Place × Bool)}
    (h : d.makeFolders folders = .ok d') (q : Place) :
    d'.entry? q = d.entry? q ∨
      d.entry? q = none ∧ d'.entry? q = some .folder ∧ ∃ isLast, (q, isLast) ∈ folders := by
  induction folders generalizing d with
  | nil =>
    obtain rfl := Except.ok.inj h
    exact .inl rfl
  | cons folder folders ih =>
    obtain ⟨d₁, hone, hmore⟩ := makeFolders_cons_eq_ok_iff.mp h
    rcases ih hmore with hlater | ⟨hnone, hfolder, isLast, hmem⟩
    · rw [hlater]
      rcases entry?_makeFolderAt hone q with hsame | ⟨hnone, hfolder, rfl⟩
      · exact .inl hsame
      · exact .inr ⟨hnone, hfolder, folder.2, List.mem_cons_self⟩
    · rcases entry?_makeFolderAt hone q with hsame | ⟨-, hmade, -⟩
      · exact .inr ⟨hsame ▸ hnone, hfolder, isLast, List.mem_cons_of_mem _ hmem⟩
      · rw [hmade] at hnone
        cases hnone

/-- Those for a path are on the way only. -/
theorem entry?_makeFolders {d d' : Disk} {place : Place} {parts : List (List Char)}
    (h : d.makeFolders (foldersAlong place parts) = .ok d') (q : Place) :
    d'.entry? q = d.entry? q ∨
      d.entry? q = none ∧ d'.entry? q = some .folder ∧ q ∈ stops place parts := by
  rcases entry?_of_makeFolders h q with hsame | ⟨hnone, hfolder, isLast, hmem⟩
  · exact .inl hsame
  · exact .inr ⟨hnone, hfolder, mem_stops_of_mem_foldersAlong hmem⟩

theorem here_makeFolders {d d' : Disk} {folders : List (Place × Bool)}
    (h : d.makeFolders folders = .ok d') : d'.here = d.here := by
  induction folders generalizing d with
  | nil =>
    obtain rfl := Except.ok.inj h
    rfl
  | cons folder folders ih =>
    obtain ⟨d₁, hone, hmore⟩ := makeFolders_cons_eq_ok_iff.mp h
    exact (ih hmore).trans (here_makeFolderAt hone)

theorem folder_makeFolders {d d' : Disk} {q : Place} {folders : List (Place × Bool)}
    (h : d.makeFolders folders = .ok d') (hq : d.entry? q = some .folder) :
    d'.entry? q = some .folder := by
  rcases entry?_of_makeFolders h q with hsame | ⟨-, hfolder, -⟩
  · rw [hsame, hq]
  · exact hfolder

/-- Once the folders along a path are made, the way is open, and so is the way to each place on
it. -/
theorem rooted_makeFolders {d d' : Disk} {place : Place} {parts : List (List Char)}
    (h : d.makeFolders (foldersAlong place parts) = .ok d') (hrooted : d.Rooted place) :
    ∀ q ∈ stops place parts, d'.Rooted q := by
  induction parts generalizing d place with
  | nil =>
    obtain rfl := Except.ok.inj h
    intro q hq
    rwa [List.mem_singleton.mp hq]
  | cons part rest ih =>
    have hstart : d'.Rooted place := fun q hq => folder_makeFolders h (hrooted q hq)
    refine List.forall_mem_cons.mpr ⟨hstart, ?_⟩
    rcases foldersAlong_cons place part rest with ⟨hback, hnext⟩ | ⟨hturn, hnext⟩
    · exact ih (hnext ▸ h) (fun q hq => hrooted q (hq.trans hback))
    · rw [hnext] at h
      obtain ⟨d₁, hone, hmore⟩ := makeFolders_cons_eq_ok_iff.mp h
      have hnew := entry?_makeFolderAt_self hone
      refine ih hmore ?_
      rw [hturn] at hnew ⊢
      exact Rooted.append_singleton (fun q hq => folder_makeFolderAt hone (hrooted q hq)) hnew

/-- Folders can be made along a path on which no file is in the way. -/
theorem exists_makeFolders {d : Disk} {place : Place} {parts : List (List Char)}
    (hfree : ∀ q ∈ stops place parts, ∀ content, d.entry? q ≠ some (.file content)) :
    ∃ d', d.makeFolders (foldersAlong place parts) = .ok d' := by
  induction parts generalizing d place with
  | nil => exact ⟨d, rfl⟩
  | cons part rest ih =>
    have hrest := (List.forall_mem_cons.mp hfree).2
    rcases foldersAlong_cons place part rest with ⟨-, hnext⟩ | ⟨-, hnext⟩
    · rw [hnext]
      exact ih hrest
    · obtain ⟨d₁, hone⟩ := exists_makeFolderAt (hrest _ (start_mem_stops _ _)) rest.isEmpty
      have hfree' : ∀ q ∈ stops (turn place part) rest, ∀ content,
          d₁.entry? q ≠ some (.file content) := by
        intro q hq content
        rcases entry?_makeFolderAt hone q with hsame | ⟨-, hfolder, -⟩
        · rw [hsame]
          exact hrest q hq content
        · simp [hfolder]
      obtain ⟨d', hmore⟩ := ih hfree'
      rw [hnext]
      exact ⟨d', makeFolders_cons_eq_ok_iff.mpr ⟨d₁, hone, hmore⟩⟩

/-! ## Paths below paths -/

/-- The parts of a path, but for an empty last one. -/
def way (path : String) : List (List Char) :=
  if path.isEmpty || path.toList.getLast? == some '/' then (parts path).dropLast else parts path

theorem way_prefix_parts (path : String) : way path <+: parts path := by
  unfold way
  split
  · exact List.dropLast_prefix _
  · exact List.prefix_rfl

/-- A part of a path that is a name: it is one part, and leads further down. -/
structure IsName (name : String) : Prop where
  slash : '/' ∉ name.toList
  nonempty : name.toList ≠ []
  here : name.toList ≠ ['.']
  back : name.toList ≠ ['.', '.']

theorem IsName.turn_eq {name : String} (h : IsName name) (place : Place) :
    turn place name.toList = place ++ [name] := by
  rw [turn, if_neg (not_or.mpr ⟨h.nonempty, h.here⟩), if_neg h.back, String.ofList_toList]

/-- A name below a path is one more part of it. -/
theorem parts_join {inner : String} (h : '/' ∉ inner.toList) (outer : String) :
    parts (join outer inner) = way outer ++ [inner.toList] := by
  have hinner : inner.toList.splitOn '/' = [inner.toList] := List.splitOn_eq_singleton h
  unfold join way
  split
  · rename_i hclosed
    rcases Bool.or_eq_true_iff.mp hclosed with hempty | hslash
    · have hnil : outer = "" := by simpa using hempty
      subst hnil
      simpa [parts] using hinner
    · obtain ⟨front, hfront⟩ := List.getLast?_eq_some_iff.mp (beq_iff_eq.mp hslash)
      unfold parts
      rw [String.toList_append, hfront, List.append_assoc, List.singleton_append,
        List.splitOn_append_cons_self, List.splitOn_append_cons_self, List.splitOn_nil,
        List.dropLast_concat, hinner]
  · have hchars : (outer ++ "/" ++ inner).toList = outer.toList ++ '/' :: inner.toList := by simp
    rw [parts, parts, hchars, List.splitOn_append_cons_self, hinner]

theorem join_append (outer inner more : String) :
    join outer inner ++ more = join outer (inner ++ more) := by
  unfold join
  split <;> simp [String.append_assoc]

theorem toList_join_ne_nil {inner : String} (h : inner.toList ≠ []) (outer : String) :
    (join outer inner).toList ≠ [] := by
  unfold join
  split <;> simp [h]

theorem way_join {inner : String} (h : IsName inner) (outer : String) :
    way (join outer inner) = way outer ++ [inner.toList] := by
  have hlast : (join outer inner).toList.getLast? = inner.toList.getLast? := by
    obtain ⟨front, c, hinner⟩ := (List.eq_nil_or_concat _).resolve_left h.nonempty
    unfold join
    split <;> simp [hinner, List.getLast?_cons]
  have hclosed : inner.toList.getLast? ≠ some '/' := fun hslash =>
    h.slash (List.mem_of_getLast? hslash)
  have hnonempty : join outer inner ≠ "" := by
    intro hempty
    exact toList_join_ne_nil h.nonempty outer (by rw [hempty]; rfl)
  rw [way, hlast, if_neg, parts_join h.slash]
  simp [hnonempty, hclosed]

theorem origin_join {inner : String} (h : '/' ∉ inner.toList) (d : Disk) (outer : String) :
    d.origin (join outer inner) = d.origin outer := by
  have hinner : inner.toList.head? ≠ some '/' := fun hslash => h (List.mem_of_head? hslash)
  unfold origin join
  cases houter : outer.toList with
  | nil =>
    have hempty : outer = "" := by simpa using houter
    subst hempty
    simp [hinner]
  | cons c rest => split <;> simp [houter]

/-- The place of a folder by its path, whatever stands there. -/
def target (d : Disk) (path : String) : Place := walk (d.origin path) (way path)

/-- There are folders all along a path. -/
def OpenTo (d : Disk) (path : String) : Prop := d.Open (d.origin path) (way path)

theorem target_join {inner : String} (h : IsName inner) (d : Disk) (outer : String) :
    d.target (join outer inner) = d.target outer ++ [inner] := by
  rw [target, origin_join h.slash, way_join h, walk_concat, h.turn_eq, target]

theorem locate_join_eq_ok_iff {inner : String} (h : IsName inner) {d : Disk} {outer : String}
    {q : Place} :
    d.locate (join outer inner) = .ok q ↔ d.OpenTo outer ∧ q = d.target outer ++ [inner] := by
  have hnonempty : join outer inner ≠ "" := by
    intro hempty
    exact toList_join_ne_nil h.nonempty outer (by rw [hempty]; rfl)
  rw [locate_eq d hnonempty, origin_join h.slash, parts_join h.slash, follow_concat_eq_ok_iff,
    h.turn_eq]
  rfl

/-- A name below a path is located if the way is open, and there is a fault if it is not. -/
theorem locate_join_cases {inner : String} (h : IsName inner) (d : Disk) (outer : String) :
    d.OpenTo outer ∧ d.locate (join outer inner) = .ok (d.target outer ++ [inner]) ∨
      ¬d.OpenTo outer ∧ ∃ fault, d.locate (join outer inner) = .error fault := by
  cases hplace : d.locate (join outer inner) with
  | error fault =>
    refine .inr ⟨?_, fault, rfl⟩
    intro hopen
    rw [(locate_join_eq_ok_iff h).mpr ⟨hopen, rfl⟩] at hplace
    cases hplace
  | ok place =>
    obtain ⟨hopen, rfl⟩ := (locate_join_eq_ok_iff h).mp hplace
    exact .inl ⟨hopen, rfl⟩

theorem read_join_eq_ok_iff {inner : String} (h : IsName inner) {d : Disk} {outer : String}
    {bytes : Bytes} :
    d.read (join outer inner) = .ok bytes ↔
      d.OpenTo outer ∧ d.entry? (d.target outer ++ [inner]) = some (.file bytes) := by
  unfold read
  rcases locate_join_cases h d outer with ⟨hopen, hplace⟩ | ⟨hshut, fault, hplace⟩
  · rw [hplace, and_iff_right hopen]
    dsimp only
    split
    · rename_i content hfile
      rw [hfile]
      simp
    · rename_i hfolder
      simp [hfolder]
    · rename_i hnone
      simp [hnone]
  · simp [hplace, hshut]

theorem write_join_eq_ok_iff {inner : String} (h : IsName inner) {d d' : Disk} {outer : String}
    {content : Bytes} :
    d.write (join outer inner) content = .ok d' ↔
      d.OpenTo outer ∧ d.entry? (d.target outer ++ [inner]) ≠ some .folder ∧
        d' = d.set (d.target outer ++ [inner]) (.file content) := by
  unfold write
  rcases locate_join_cases h d outer with ⟨hopen, hplace⟩ | ⟨hshut, fault, hplace⟩
  · rw [hplace, and_iff_right hopen]
    dsimp only
    split
    · rename_i hfolder
      simp [hfolder]
    · rename_i hfree
      rw [Except.ok.injEq, and_iff_right hfree, eq_comm]
  · simp [hplace, hshut]

theorem append_join_eq_ok_iff {inner : String} (h : IsName inner) {d d' : Disk} {outer : String}
    {piece : Bytes} :
    d.append (join outer inner) piece = .ok d' ↔
      d.OpenTo outer ∧ ∃ content, d.entry? (d.target outer ++ [inner]) = some (.file content) ∧
        d' = d.set (d.target outer ++ [inner]) (.file (content ++ piece)) := by
  unfold append
  cases hread : d.read (join outer inner) with
  | error fault =>
    simp only [reduceCtorEq, false_iff, not_and, not_exists]
    intro hopen content hfile
    rw [(read_join_eq_ok_iff h).mpr ⟨hopen, hfile⟩] at hread
    cases hread
  | ok content =>
    obtain ⟨hopen, hfile⟩ := (read_join_eq_ok_iff h).mp hread
    rw [(locate_join_eq_ok_iff h).mpr ⟨hopen, rfl⟩]
    simp [hopen, hfile, eq_comm]

/-- A file is moved within a folder. -/
theorem move_join_eq_ok_iff {old new : String} (hold : IsName old) (hnew : IsName new) {d d' : Disk}
    {outer : String} :
    d.move (join outer old) (join outer new) = .ok d' ↔
      d.OpenTo outer ∧ d.entry? (d.target outer ++ [new]) ≠ some .folder ∧
        ∃ content, d.entry? (d.target outer ++ [old]) = some (.file content) ∧
          d' = (d.clear (d.target outer ++ [old])).set (d.target outer ++ [new])
            (.file content) := by
  unfold move
  cases hread : d.read (join outer old) with
  | error fault =>
    simp only [reduceCtorEq, false_iff, not_and, not_exists]
    intro hopen _ content hfile
    rw [(read_join_eq_ok_iff hold).mpr ⟨hopen, hfile⟩] at hread
    cases hread
  | ok content =>
    obtain ⟨hopen, hfile⟩ := (read_join_eq_ok_iff hold).mp hread
    rw [(locate_join_eq_ok_iff hold).mpr ⟨hopen, rfl⟩,
      (locate_join_eq_ok_iff hnew).mpr ⟨hopen, rfl⟩]
    dsimp only
    rw [and_iff_right hopen]
    split
    · rename_i hfolder
      simp [hfolder]
    · rename_i hfree
      rw [Except.ok.injEq, and_iff_right hfree, hfile]
      simp [eq_comm]

end CauseLists.Disk
