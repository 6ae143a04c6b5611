-- Listing the files of a folder. The listing has each file of the folder once, in the order of the
-- names, so it does not depend on the order in which a disk keeps its entries; nor does anything
-- else that is seen of a disk.
import CauseLists.Proofs.Disk
import Mathlib.Data.List.Sort

namespace CauseLists.Disk

/-! ## Folders that are there -/

/-- A path leads to a folder, which stands in a place. -/
structure LeadsTo (d : Disk) (path : String) (place : Place) : Prop where
  located : d.locate path = .ok place
  folder : d.entry? place = some .folder

/-- The way to a folder is open to its end. -/
theorem LeadsTo.openTo {d : Disk} {path : String} {place : Place} (h : d.LeadsTo path place) :
    d.OpenTo path ∧ d.target path = place := by
  have hpath : path ≠ "" := by
    rintro rfl
    cases h.located
  obtain ⟨front, last, hparts⟩ :=
    (List.eq_nil_or_concat (parts path)).resolve_left (List.splitOn_ne_nil '/' _)
  rw [List.concat_eq_append] at hparts
  have hfollow : d.follow (d.origin path) (front ++ [last]) = .ok place := by
    rw [← hparts, ← locate_eq d hpath, h.located]
  obtain ⟨hopen, hplace⟩ := follow_concat_eq_ok_iff.mp hfollow
  unfold OpenTo target way
  split
  · -- The path ends with a slash, and its last part leads nowhere.
    rename_i hclosed
    have hslash : path.toList.getLast? = some '/' := by simpa [hpath] using hclosed
    have hlast : last = [] := by
      obtain ⟨chars, hchars⟩ := List.getLast?_eq_some_iff.mp hslash
      unfold parts at hparts
      rw [hchars, List.splitOn_append_cons_self, List.splitOn_nil] at hparts
      exact (List.singleton_inj.mp (List.append_inj_right' hparts rfl)).symm
    rw [hparts, List.dropLast_concat]
    exact ⟨hopen, by rw [hplace, hlast]; rfl⟩
  · rw [hparts, walk_concat, ← hplace]
    refine ⟨?_, rfl⟩
    intro q hq
    rw [stops_concat, List.mem_append, List.mem_singleton, walk_concat, ← hplace] at hq
    rcases hq with hq | rfl
    · exact hopen q hq
    · exact h.folder

/-- A file stands in a place under a name, with its bytes. -/
def Keeps (d : Disk) (place : Place) (name : String) (content : Bytes) : Prop :=
  d.entry? (place ++ [name]) = some (.file content)

theorem LeadsTo.read_join {d : Disk} {path : String} {place : Place} (h : d.LeadsTo path place)
    {name : String} (hname : IsName name) {content : Bytes} (hfile : d.Keeps place name content) :
    d.read (join path name) = .ok content := by
  obtain ⟨hopen, rfl⟩ := h.openTo
  exact (read_join_eq_ok_iff hname).mpr ⟨hopen, hfile⟩

/-! ## Listings -/

/-- No place stands twice on a disk. -/
def PlacesOnce (d : Disk) : Prop := (Table.keys d.entries).Nodup

/-- There is a file in a place with a name. -/
def HasFile (d : Disk) (place : Place) (name : String) : Prop :=
  ∃ content, d.Keeps place name content

/-- A disk as it is found: no place stands twice on it, and no name has a slash. -/
structure Proper (d : Disk) : Prop where
  once : d.PlacesOnce
  whole : ∀ row ∈ d.entries, ∀ name ∈ row.1, '/' ∉ name.toList

/-- Names are those of the files in a place, each of them once and in order. -/
structure Lists (d : Disk) (place : Place) (names : List String) : Prop where
  order : names.Pairwise (fun a b => a < b)
  mem : ∀ name, name ∈ names ↔ d.HasFile place name

theorem keeps_iff {d : Disk} (h : d.PlacesOnce) {place : Place} {name : String} {content : Bytes} :
    d.Keeps place name content ↔ (place ++ [name], DiskEntry.file content) ∈ d.entries := by
  rw [Keeps, entry?, if_neg (by simp), Table.mem_iff_get? h]

theorem Proper.slash_notMem {d : Disk} (h : d.Proper) {place : Place} {name : String}
    {content : Bytes} (hkeeps : d.Keeps place name content) : '/' ∉ name.toList :=
  h.whole _ ((keeps_iff h.once).mp hkeeps) name (by simp)

/-- A file is listed under the last name that leads to it. -/
theorem dropLast_getLast?_iff {place p : Place} {name : String} :
    (p.dropLast = place ∧ p.getLast? = some name) ↔ p = place ++ [name] := by
  constructor
  · rintro ⟨rfl, hlast⟩
    obtain ⟨front, rfl⟩ := List.getLast?_eq_some_iff.mp hlast
    rw [List.dropLast_concat]
  · rintro rfl
    simp

theorem pairwise_lt_mergeSort {names : List String} (h : names.Nodup) :
    (names.mergeSort (fun a b => a ≤ b)).Pairwise (fun a b => a < b) := by
  have hsorted : (names.mergeSort (fun a b => a ≤ b)).Pairwise
      (fun a b => decide (a ≤ b) = true) := by
    refine List.pairwise_mergeSort ?_ ?_ names
    · intro a b c hab hbc
      rw [decide_eq_true_eq] at hab hbc ⊢
      exact String.le_trans hab hbc
    · intro a b
      rw [Bool.or_eq_true, decide_eq_true_eq, decide_eq_true_eq]
      exact String.le_total a b
  have hnodup : (names.mergeSort (fun a b => a ≤ b)).Nodup :=
    (List.mergeSort_perm names _).nodup_iff.mpr h
  refine (hsorted.and hnodup).imp ?_
  rintro a b ⟨hle, hne⟩
  have hback : ¬ b ≤ a := fun hba => hne (String.le_antisymm (of_decide_eq_true hle) hba)
  exact String.not_le.mp hback

theorem filesIn_eq_ok {d : Disk} (honce : d.PlacesOnce) {path : String} {place : Place}
    (h : d.LeadsTo path place) : ∃ names, d.filesIn path = .ok names ∧ d.Lists place names := by
  unfold filesIn
  rw [h.located]
  dsimp only
  rw [h.folder]
  dsimp only
  refine ⟨_, rfl, pairwise_lt_mergeSort ?_, ?_⟩
  · refine List.pairwise_filterMap.mpr ((List.pairwise_map.mp honce).imp ?_)
    rintro ⟨p, entry⟩ ⟨q, entry'⟩ hne name hname name' hname' rfl
    cases entry with
    | folder => cases hname
    | file content =>
      cases entry' with
      | folder => cases hname'
      | file content' =>
        obtain ⟨hp, hlast⟩ := Option.ite_none_right_eq_some.mp hname
        obtain ⟨hq, hlast'⟩ := Option.ite_none_right_eq_some.mp hname'
        exact hne ((dropLast_getLast?_iff.mp ⟨hp, hlast⟩).trans
          (dropLast_getLast?_iff.mp ⟨hq, hlast'⟩).symm)
  · intro name
    rw [List.mem_mergeSort, List.mem_filterMap]
    simp only [HasFile, keeps_iff honce]
    constructor
    · rintro ⟨⟨p, entry⟩, hrow, hname⟩
      cases entry with
      | folder => cases hname
      | file content =>
        have hp := dropLast_getLast?_iff.mp (Option.ite_none_right_eq_some.mp hname)
        exact ⟨content, hp ▸ hrow⟩
    · rintro ⟨content, hrow⟩
      exact ⟨_, hrow, by simp⟩

theorem Lists.eq {d : Disk} {place : Place} {names names' : List String} (h : d.Lists place names)
    (h' : d.Lists place names') : names = names' :=
  h.order.eq_of_mem_iff h'.order (fun name => (h.mem name).trans (h'.mem name).symm)

theorem Lists.mem_before_of_lt {d : Disk} {place : Place} {before after : List String}
    {name other : String} (h : d.Lists place (before ++ name :: after))
    (hmem : other ∈ before ++ name :: after) (hlt : other < name) : other ∈ before := by
  rcases List.mem_append.mp hmem with hbefore | hmem
  · exact hbefore
  · obtain ⟨-, hordered, -⟩ := List.pairwise_append.mp h.order
    rcases List.mem_cons.mp hmem with rfl | hafter
    · exact absurd hlt (String.lt_irrefl _)
    · have hback := (List.pairwise_cons.mp hordered).1 other hafter
      exact absurd (String.lt_trans hlt hback) (String.lt_irrefl _)

/-! ## What a disk is seen by -/

/-- Two disks have the same in every place, in whatever order they keep it. -/
structure Same (d d' : Disk) : Prop where
  here : d'.here = d.here
  entries : ∀ q, d'.entry? q = d.entry? q

theorem same_of_perm {d d' : Disk} (honce : d.PlacesOnce) (hhere : d'.here = d.here)
    (h : d'.entries.Perm d.entries) : d.Same d' where
  here := hhere
  entries := by
    have honce' : d'.PlacesOnce := (h.map Prod.fst).nodup_iff.mpr honce
    intro q
    unfold entry?
    split
    · rfl
    · refine Option.ext ?_
      intro entry
      rw [← Table.mem_iff_get? honce', ← Table.mem_iff_get? honce, h.mem_iff]

namespace Same

variable {d d' : Disk}

theorem follow (h : d.Same d') (place : Place) (parts : List (List Char)) :
    d'.follow place parts = d.follow place parts := by
  induction parts generalizing place with
  | nil => rfl
  | cons part rest ih => simp only [Disk.follow, h.entries, ih]

theorem locate (h : d.Same d') (path : String) : d'.locate path = d.locate path := by
  simp only [Disk.locate, h.here, h.follow]

theorem readText (h : d.Same d') (path : String) : d'.readText path = d.readText path := by
  simp only [Disk.readText, Disk.read, h.locate, h.entries]

theorem filesIn (h : d.Same d') (honce : d.PlacesOnce) (honce' : d'.PlacesOnce) (path : String) :
    d'.filesIn path = d.filesIn path := by
  cases hplace : d.locate path with
  | error fault => simp only [Disk.filesIn, h.locate, hplace]
  | ok place =>
    cases hentry : d.entry? place with
    | none => simp only [Disk.filesIn, h.locate, hplace, h.entries, hentry]
    | some entry =>
      cases entry with
      | file content => simp only [Disk.filesIn, h.locate, hplace, h.entries, hentry]
      | folder =>
        obtain ⟨names, hfiles, hlists⟩ := filesIn_eq_ok honce ⟨hplace, hentry⟩
        obtain ⟨names', hfiles', hlists'⟩ := filesIn_eq_ok honce'
          ⟨(h.locate path).trans hplace, (h.entries place).trans hentry⟩
        have hsame : d.Lists place names' := ⟨hlists'.order, fun name => by
          rw [hlists'.mem]
          simp only [HasFile, Keeps, h.entries]⟩
        rw [hfiles, hfiles', hlists.eq hsame]

end Same

end CauseLists.Disk
