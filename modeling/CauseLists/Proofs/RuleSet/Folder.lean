-- Reading a folder of rule sets. Only files count whose names end as those of rule sets do, and
-- they are read in the order of their names. So what comes of a folder depends neither on the order
-- in which a disk lists it nor on anything else that stands in it, and the first file that holds no
-- rule set is the one that is reported.
import CauseLists.Bundled.Libraries
import CauseLists.Proofs.ListType
import CauseLists.Proofs.Listing
import CauseLists.Proofs.Results
import CauseLists.Proofs.RuleSet.Registry
import Mathlib.Data.List.Pairwise
import Mathlib.Data.List.TakeDrop
import Mathlib.Data.List.TakeWhile

namespace CauseLists.Registry

/-! ## Names of files -/

/-- The name of a file of rule sets. -/
def NamesRules (name : String) : Prop :=
  ∃ stem ending, stem ≠ "" ∧ ending ∈ [".yaml", ".yml", ".json"] ∧ name = stem ++ ending

theorem extension_eq_some_iff {name ending : String} :
    extension name = some ending ↔
      ∃ stem, stem ≠ [] ∧ name.toList = stem ++ '.' :: ending.toList ∧ '.' ∉ ending.toList := by
  unfold extension
  rw [List.span_eq_takeWhile_dropWhile]
  constructor
  · intro h
    split at h
    · rename_i behind c front hspan
      obtain rfl := Option.some.inj h
      obtain ⟨hbehind, hfront⟩ := Prod.mk.inj hspan
      have hwhole : name.toList.reverse = behind ++ '.' :: c :: front := by
        rw [← hbehind, ← hfront, List.takeWhile_append_dropWhile]
      refine ⟨(c :: front).reverse, by simp, ?_, ?_⟩
      · rw [← List.reverse_inj, hwhole]
        simp
      · rw [String.toList_ofList, List.mem_reverse, ← hbehind]
        intro hdot
        simpa using List.mem_takeWhile_imp hdot
    · cases h
  · rintro ⟨stem, hstem, hname, hdot⟩
    have hreverse : name.toList.reverse = ending.toList.reverse ++ '.' :: stem.reverse := by
      rw [hname]
      simp
    have hbehind : ∀ c ∈ ending.toList.reverse, (c != '.') = true := by
      intro c hc
      rw [bne_iff_ne]
      rintro rfl
      exact hdot (List.mem_reverse.mp hc)
    obtain ⟨c, front, hfront⟩ := List.exists_cons_of_ne_nil (List.reverse_ne_nil_iff.mpr hstem)
    rw [hreverse, List.takeWhile_append_of_pos hbehind, List.dropWhile_append_of_pos hbehind,
      hfront]
    simp

theorem fileKind?_isSome_iff {name : String} : (fileKind? name).isSome ↔ NamesRules name := by
  have hextension : (fileKind? name).isSome ↔
      ∃ ending ∈ ["yaml", "yml", "json"], extension name = some ending := by
    unfold fileKind?
    split <;> simp_all
  rw [hextension]
  constructor
  · rintro ⟨ending, hending, h⟩
    obtain ⟨stem, hstem, hname, -⟩ := extension_eq_some_iff.mp h
    refine ⟨String.ofList stem, "." ++ ending, by simpa using hstem, ?_, ?_⟩
    · simp at hending ⊢
      rcases hending with rfl | rfl | rfl <;> simp
    · rw [← String.toList_inj, hname]
      simp
  · rintro ⟨stem, ending, hstem, hending, rfl⟩
    have hchars : stem.toList ≠ [] := by simpa using hstem
    simp only [List.mem_cons, List.not_mem_nil, or_false] at hending
    rcases hending with rfl | rfl | rfl
    · exact ⟨"yaml", by simp, extension_eq_some_iff.mpr ⟨_, hchars, by simp, by decide⟩⟩
    · exact ⟨"yml", by simp, extension_eq_some_iff.mpr ⟨_, hchars, by simp, by decide⟩⟩
    · exact ⟨"json", by simp, extension_eq_some_iff.mpr ⟨_, hchars, by simp, by decide⟩⟩

/-- The name of a file of rule sets leads further down. -/
theorem NamesRules.isName {name : String} (h : NamesRules name) (hslash : '/' ∉ name.toList) :
    Disk.IsName name := by
  obtain ⟨stem, ending, hstem, hending, rfl⟩ := h
  have hlong : 4 ≤ (stem ++ ending).toList.length := by
    simp only [List.mem_cons, List.not_mem_nil, or_false] at hending
    rcases hending with rfl | rfl | rfl <;> simp
  refine ⟨hslash, ?_, ?_, ?_⟩
  · intro hnil
    rw [hnil] at hlong
    cases hlong
  · intro hdot
    rw [hdot] at hlong
    simp at hlong
  · intro hdots
    rw [hdots] at hlong
    simp at hlong

/-! ## Files -/

variable {l : Libraries} {d d' : Disk} {folder : String} {place : Place} {names : List String}

/-- The name of a file says that it holds rule sets, and this is what comes of reading it. -/
def Reads (l : Libraries) (d : Disk) (folder name : String)
    (result : Except RegistryError RuleSet) : Prop :=
  ∃ kind, fileKind? name = some kind ∧ readFile l d (Disk.join folder name) kind = result

/-- Two files do not give rule sets of one list type. -/
def Apart (l : Libraries) (d : Disk) (folder name other : String) : Prop :=
  ∀ s t, Reads l d folder name (.ok s) → Reads l d folder other (.ok t) → s.listType ≠ t.listType

instance : Std.Symm (Apart l d folder) where
  symm _ _ h s t hs ht := (h t s ht hs).symm

theorem Reads.fileKind?_isSome {name : String} {result : Except RegistryError RuleSet}
    (h : Reads l d folder name result) : (fileKind? name).isSome := by
  obtain ⟨kind, hkind, -⟩ := h
  simp [hkind]

theorem Reads.unique {name : String} {result result' : Except RegistryError RuleSet}
    (h : Reads l d folder name result) (h' : Reads l d folder name result') : result = result' := by
  obtain ⟨kind, hkind, h⟩ := h
  obtain ⟨kind', hkind', h'⟩ := h'
  obtain rfl := Option.some.inj (hkind.symm.trans hkind')
  exact h.symm.trans h'

theorem readFiles_filter (l : Libraries) (d : Disk) (folder : String) (names : List String) :
    readFiles l d folder (names.filter (fun name => (fileKind? name).isSome)) =
      readFiles l d folder names := by
  induction names with
  | nil => rfl
  | cons name rest ih =>
    cases hkind : fileKind? name with
    | none => rw [List.filter_cons_of_neg (by simp [hkind]), readFiles, hkind, ih]
    | some kind =>
      rw [List.filter_cons_of_pos (by simp [hkind]), readFiles, readFiles, hkind]
      simp only [ih]

theorem readFiles_congr (h : ∀ name ∈ names, ∀ kind, fileKind? name = some kind →
      readFile l d' (Disk.join folder name) kind = readFile l d (Disk.join folder name) kind) :
    readFiles l d' folder names = readFiles l d folder names := by
  induction names with
  | nil => rfl
  | cons name rest ih =>
    obtain ⟨hfirst, hrest⟩ := List.forall_mem_cons.mp h
    rw [readFiles, readFiles, ih hrest]
    cases hkind : fileKind? name with
    | none => rfl
    | some kind => simp only [hfirst kind hkind]

/-- Files are read exactly if each one of them that should gives a rule set, and these are read. -/
theorem readFiles_eq_ok_iff {ruleSets : List RuleSet} :
    readFiles l d folder names = .ok ruleSets ↔
      List.Forall₂ (fun name s => Reads l d folder name (.ok s))
        (names.filter (fun name => (fileKind? name).isSome)) ruleSets := by
  induction names generalizing ruleSets with
  | nil =>
    rw [List.filter_nil, List.forall₂_nil_left_iff, readFiles, Except.ok.injEq, eq_comm]
  | cons name rest ih =>
    rw [readFiles]
    cases hkind : fileKind? name with
    | none =>
      rw [List.filter_cons_of_neg (by simp [hkind])]
      exact ih
    | some kind =>
      rw [List.filter_cons_of_pos (by simp [hkind]), List.forall₂_cons_left_iff]
      dsimp only
      rw [bind_eq_ok_iff]
      constructor
      · rintro ⟨s, hs, h⟩
        obtain ⟨more, hmore, h⟩ := bind_eq_ok_iff.mp h
        exact ⟨s, more, ⟨kind, hkind, hs⟩, ih.mp hmore, (pure_eq_ok_iff.mp h).symm⟩
      · rintro ⟨s, more, ⟨kind', hkind', hs⟩, hmore, rfl⟩
        obtain rfl := Option.some.inj (hkind.symm.trans hkind')
        exact ⟨s, hs, bind_eq_ok_iff.mpr ⟨more, ih.mpr hmore, rfl⟩⟩

theorem readFiles_cons_of_fails {name : String} {e : RegistryError}
    (h : Reads l d folder name (.error e)) (rest : List String) :
    readFiles l d folder (name :: rest) = .error e := by
  obtain ⟨kind, hkind, hread⟩ := h
  rw [readFiles, hkind]
  exact bind_eq_error_iff.mpr (.inl hread)

theorem readFiles_cons_eq_error_iff {name : String} {rest : List String} {e : RegistryError}
    (hname : ∀ e', ¬ Reads l d folder name (.error e')) :
    readFiles l d folder (name :: rest) = .error e ↔ readFiles l d folder rest = .error e := by
  rw [readFiles]
  cases hkind : fileKind? name with
  | none => rfl
  | some kind =>
    cases hread : readFile l d (Disk.join folder name) kind with
    | error e' => exact absurd ⟨kind, hkind, hread⟩ (hname e')
    | ok s => simp [bind_eq_error_iff, hread, pure, Except.pure]

/-- Reading files ends at the first one that should give a rule set and gives none. -/
theorem exists_of_readFiles_error {e : RegistryError} (h : readFiles l d folder names = .error e) :
    ∃ before first after, names = before ++ first :: after ∧
      (∀ other ∈ before, ∀ e', ¬ Reads l d folder other (.error e')) ∧
        Reads l d folder first (.error e) := by
  induction names with
  | nil => cases h
  | cons name rest ih =>
    by_cases hname : ∃ e', Reads l d folder name (.error e')
    · obtain ⟨e', hname⟩ := hname
      rw [readFiles_cons_of_fails hname] at h
      obtain rfl := Except.error.inj h
      exact ⟨[], name, rest, rfl, by simp, hname⟩
    · rw [not_exists] at hname
      obtain ⟨before, first, after, rfl, hbefore, hfirst⟩ :=
        ih ((readFiles_cons_eq_error_iff hname).mp h)
      exact ⟨name :: before, first, after, rfl, List.forall_mem_cons.mpr ⟨hname, hbefore⟩, hfirst⟩

/-- Files are read exactly if none of them fails. -/
theorem exists_readFiles_iff :
    (∃ ruleSets, readFiles l d folder names = .ok ruleSets) ↔
      ∀ name ∈ names, ∀ e, ¬ Reads l d folder name (.error e) := by
  constructor
  · rintro ⟨ruleSets, hread⟩ name hname e hfails
    obtain ⟨s, -, hs⟩ := exists_of_mem_left (readFiles_eq_ok_iff.mp hread)
      (List.mem_filter.mpr ⟨hname, hfails.fileKind?_isSome⟩)
    cases hs.unique hfails
  · intro h
    cases hread : readFiles l d folder names with
    | ok ruleSets => exact ⟨ruleSets, rfl⟩
    | error e =>
      obtain ⟨before, first, after, rfl, -, hfirst⟩ := exists_of_readFiles_error hread
      exact absurd hfirst (h first (by simp) e)

/-! ## Folders -/

theorem ofFolder_of_filesIn (h : d.filesIn folder = .ok names) :
    ofFolder l d folder = readFiles l d folder names >>= ofRuleSets := by
  rw [ofFolder, h]

/-- What comes of a folder depends on what stands where, and not on the order of the entries. -/
theorem ofFolder_of_same (h : d.Same d') (honce : d.PlacesOnce) (honce' : d'.PlacesOnce)
    (folder : String) : ofFolder l d' folder = ofFolder l d folder := by
  have hread (names : List String) : readFiles l d' folder names = readFiles l d folder names := by
    refine readFiles_congr ?_
    intro name _ kind _
    rw [readFile, readFile, h.readText]
  rw [ofFolder, ofFolder, h.filesIn honce honce']
  simp only [hread]

/-- What comes of a folder depends on nothing in it but its files of rule sets. -/
theorem ofFolder_of_files {place' : Place} (hd : d.Proper) (hd' : d'.Proper)
    (h : d.LeadsTo folder place) (h' : d'.LeadsTo folder place')
    (hfiles : ∀ name content, NamesRules name →
      (d'.Keeps place' name content ↔ d.Keeps place name content)) :
    ofFolder l d' folder = ofFolder l d folder := by
  obtain ⟨names, hnames, hlists⟩ := Disk.filesIn_eq_ok hd.once h
  obtain ⟨names', hnames', hlists'⟩ := Disk.filesIn_eq_ok hd'.once h'
  have hrules : names'.filter (fun name => (fileKind? name).isSome) =
      names.filter (fun name => (fileKind? name).isSome) := by
    refine (hlists'.order.filter _).eq_of_mem_iff (hlists.order.filter _) ?_
    intro name
    rw [List.mem_filter, List.mem_filter, hlists.mem, hlists'.mem]
    refine and_congr_left ?_
    intro hkind
    exact exists_congr fun content => hfiles name content (fileKind?_isSome_iff.mp hkind)
  have hread : readFiles l d' folder names' = readFiles l d folder names := by
    rw [← readFiles_filter l d', hrules, ← readFiles_filter l d]
    refine readFiles_congr ?_
    intro name hname kind _
    obtain ⟨hmem, hkind⟩ := List.mem_filter.mp hname
    obtain ⟨content, hkeeps⟩ := (hlists.mem name).mp hmem
    have hnames := fileKind?_isSome_iff.mp hkind
    have hisName := hnames.isName (hd.slash_notMem hkeeps)
    have hkeeps' := (hfiles name content hnames).mpr hkeeps
    simp only [readFile, Disk.readText, h.read_join hisName hkeeps, h'.read_join hisName hkeeps']
  rw [ofFolder_of_filesIn hnames, ofFolder_of_filesIn hnames', hread]

/-- The first file of a folder, by name, that gives no rule set though its name says so. -/
structure FirstFails (l : Libraries) (d : Disk) (folder : String) (place : Place) (name : String)
    (e : RegistryError) : Prop where
  there : d.HasFile place name
  fails : Reads l d folder name (.error e)
  first : ∀ other, d.HasFile place other → other < name → ∀ e', ¬ Reads l d folder other (.error e')

theorem exists_ofFolder_error (honce : d.PlacesOnce) (h : d.LeadsTo folder place) {name : String}
    (hfile : d.HasFile place name) {e : RegistryError} (hfails : Reads l d folder name (.error e)) :
    ∃ first e', FirstFails l d folder place first e' ∧ ofFolder l d folder = .error e' := by
  obtain ⟨names, hnames, hlists⟩ := Disk.filesIn_eq_ok honce h
  cases hread : readFiles l d folder names with
  | ok ruleSets =>
    exact absurd hfails (exists_readFiles_iff.mp ⟨_, hread⟩ name ((hlists.mem name).mpr hfile) e)
  | error e' =>
    obtain ⟨before, first, after, rfl, hbefore, hfirst⟩ := exists_of_readFiles_error hread
    refine ⟨first, e', ⟨(hlists.mem first).mp (by simp), hfirst, ?_⟩, ?_⟩
    · intro other hother hlt
      exact hbefore other (hlists.mem_before_of_lt ((hlists.mem other).mpr hother) hlt)
    · rw [ofFolder_of_filesIn hnames, hread]
      rfl

/-- A registry that is read from a folder holds what the files in it give. -/
theorem mem_ofFolder (honce : d.PlacesOnce) (h : d.LeadsTo folder place) {r : Registry}
    (hr : ofFolder l d folder = .ok r) (s : RuleSet) :
    s ∈ r.ruleSets ↔ ∃ name, d.HasFile place name ∧ Reads l d folder name (.ok s) := by
  obtain ⟨names, hnames, hlists⟩ := Disk.filesIn_eq_ok honce h
  rw [ofFolder_of_filesIn hnames] at hr
  obtain ⟨ruleSets, hread, hbuilt⟩ := bind_eq_ok_iff.mp hr
  have hgiven := readFiles_eq_ok_iff.mp hread
  rw [(ofRuleSets_eq_ok_iff.mp hbuilt).2.mem_iff]
  constructor
  · intro hs
    obtain ⟨name, hname, hgives⟩ := exists_of_mem_right hgiven hs
    exact ⟨name, (hlists.mem name).mp (List.mem_of_mem_filter hname), hgives⟩
  · rintro ⟨name, hfile, hgives⟩
    obtain ⟨t, ht, hgives'⟩ := exists_of_mem_left hgiven
      (List.mem_filter.mpr ⟨(hlists.mem name).mpr hfile, hgives.fileKind?_isSome⟩)
    rwa [Except.ok.inj (hgives.unique hgives')]

/-- A folder is read exactly if none of its files fails, and no two of them give rule sets of one
list type. -/
theorem exists_ofFolder_iff (honce : d.PlacesOnce) (h : d.LeadsTo folder place) :
    (∃ r, ofFolder l d folder = .ok r) ↔
      (∀ name e, d.HasFile place name → ¬ Reads l d folder name (.error e)) ∧
      ∀ name other, d.HasFile place name → d.HasFile place other → name ≠ other →
        Apart l d folder name other := by
  obtain ⟨names, hnames, hlists⟩ := Disk.filesIn_eq_ok honce h
  rw [ofFolder_of_filesIn hnames]
  -- The list types that are read are as different as the files are apart.
  have hdistinct {ruleSets : List RuleSet} (hread : readFiles l d folder names = .ok ruleSets) :
      (ruleSets.map RuleSet.listType).Nodup ↔
        (names.filter (fun name => (fileKind? name).isSome)).Pairwise (Apart l d folder) :=
    List.pairwise_map.trans (pairwise_iff_of_forall₂
      (fun _ _ _ hs ht => Except.ok.inj (hs.unique ht)) (readFiles_eq_ok_iff.mp hread))
  constructor
  · rintro ⟨r, hr⟩
    obtain ⟨ruleSets, hread, hbuilt⟩ := bind_eq_ok_iff.mp hr
    have hapart := (hdistinct hread).mp (exists_ofRuleSets_iff.mp ⟨r, hbuilt⟩)
    refine ⟨?_, ?_⟩
    · intro name e hfile
      exact exists_readFiles_iff.mp ⟨_, hread⟩ name ((hlists.mem name).mpr hfile) e
    · intro name other hname hother hne s t hs ht
      have hmem {file : String} {u : RuleSet} (hfile : d.HasFile place file)
          (hu : Reads l d folder file (.ok u)) :
          file ∈ names.filter (fun name => (fileKind? name).isSome) :=
        List.mem_filter.mpr ⟨(hlists.mem file).mpr hfile, hu.fileKind?_isSome⟩
      exact hapart.forall (hmem hname hs) (hmem hother ht) hne s t hs ht
  · rintro ⟨hfails, hapart⟩
    obtain ⟨ruleSets, hread⟩ := exists_readFiles_iff.mpr
      (fun name hname e => hfails name e ((hlists.mem name).mp hname))
    have hnodup : (ruleSets.map RuleSet.listType).Nodup := by
      rw [hdistinct hread]
      refine List.Pairwise.imp_of_mem ?_ (hlists.order.filter _)
      rintro name other hname hother hlt
      refine hapart name other ?_ ?_ ?_
      · exact (hlists.mem name).mp (List.mem_of_mem_filter hname)
      · exact (hlists.mem other).mp (List.mem_of_mem_filter hother)
      · rintro rfl
        exact String.lt_irrefl _ hlt
    obtain ⟨r, hr⟩ := exists_ofRuleSets_iff.mpr hnodup
    exact ⟨r, bind_eq_ok_iff.mpr ⟨ruleSets, hread, hr⟩⟩

/-! ## Registries from rule sets and from folders -/

/-- Rule sets make a registry exactly if no two of them have one list type. It holds these rule
sets, and is the same in whatever order they come. Otherwise the first one is refused whose list
type another one before it has. -/
structure MadeExactly (ruleSets : List RuleSet) : Prop where
  made : (∃ r, ofRuleSets ruleSets = .ok r) ↔ (ruleSets.map RuleSet.listType).Nodup
  holds : ∀ r, ofRuleSets ruleSets = .ok r → r.Holds ruleSets
  anyOrder : ∀ r others, ofRuleSets ruleSets = .ok r → others.Perm ruleSets →
    ofRuleSets others = .ok r
  refused : ∀ e, ofRuleSets ruleSets = .error e → ∃ before s after,
    ruleSets = before ++ s :: after ∧ (before.map RuleSet.listType).Nodup ∧
      s.listType ∈ before.map RuleSet.listType ∧ e = .invalid ⟨s.listType.name, .duplicate⟩

/-- What comes of a folder, a registry or an error, is the same in whatever order the disk keeps its
entries, and whatever stands beside the files of rule sets. Each of these files counts: one that
gives no rule set fails the whole folder, and the first such file is reported. -/
structure ReadExactly (l : Libraries) (d : Disk) (folder : String) : Prop where
  anyOrder : ∀ d' : Disk, d'.here = d.here → d'.entries.Perm d.entries →
    ofFolder l d' folder = ofFolder l d folder
  otherFiles : ∀ (d' : Disk) place place', d'.Proper → d.LeadsTo folder place →
    d'.LeadsTo folder place' → (∀ name content, NamesRules name →
      (d'.Keeps place' name content ↔ d.Keeps place name content)) →
    ofFolder l d' folder = ofFolder l d folder
  invalid : ∀ place name e, d.LeadsTo folder place → d.HasFile place name →
    Reads l d folder name (.error e) →
      ∃ first e', FirstFails l d folder place first e' ∧ ofFolder l d folder = .error e'
  made : ∀ place, d.LeadsTo folder place → ((∃ r, ofFolder l d folder = .ok r) ↔
    (∀ name e, d.HasFile place name → ¬ Reads l d folder name (.error e)) ∧
      ∀ name other, d.HasFile place name → d.HasFile place other → name ≠ other →
        Apart l d folder name other)
  holds : ∀ place r s, d.LeadsTo folder place → ofFolder l d folder = .ok r →
    (s ∈ r.ruleSets ↔ ∃ name, d.HasFile place name ∧ Reads l d folder name (.ok s))

theorem registries_are_exact_in_any_order (l : Libraries) (ruleSets : List RuleSet) {d : Disk}
    (hd : d.Proper) (folder : String) : MadeExactly ruleSets ∧ ReadExactly l d folder := by
  constructor
  · constructor
    · exact exists_ofRuleSets_iff
    · intro r
      exact holds_of_ofRuleSets
    · intro r others hr hperm
      obtain ⟨horder, hsame⟩ := ofRuleSets_eq_ok_iff.mp hr
      exact ofRuleSets_eq_ok_iff.mpr ⟨horder, hsame.trans hperm.symm⟩
    · intro e
      exact exists_of_ofRuleSets_error
  · constructor
    · intro d' hhere hperm
      have honce' : d'.PlacesOnce := (hperm.map Prod.fst).nodup_iff.mpr hd.once
      exact ofFolder_of_same (Disk.same_of_perm hd.once hhere hperm) hd.once honce' folder
    · intro d' place place' hd' h h' hfiles
      exact ofFolder_of_files hd hd' h h' hfiles
    · intro place name e h hfile hfails
      exact exists_ofFolder_error hd.once h hfile hfails
    · intro place h
      exact exists_ofFolder_iff hd.once h
    · intro place r s h hr
      exact mem_ofFolder hd.once h hr s

namespace Example

/-- Rules of which one is enough: there has to be a document. -/
def someDocument (listType : ListType) : RuleSet where
  listType := listType
  givenAnchors := []
  baseRules := [⟨[], .required⟩]
  strictRules := []
  schema := none

def daily : RuleSet := someDocument ⟨"DAILY_LIST", ListType.isCanonical_daily⟩

def weekly : RuleSet := someDocument ⟨"WEEKLY_LIST", ListType.isCanonical_weekly⟩

/-- A folder with notes, and with a file of rule sets that holds no text. -/
def broken : Disk where
  entries := [(["rules"], .folder), (["rules", "notes.md"], .file [104, 105]),
    (["rules", "daily.json"], .file [255])]
  here := []

theorem broken_proper : broken.Proper where
  once := show (Table.keys broken.entries).Nodup by decide
  whole := by decide

theorem broken_leadsTo : broken.LeadsTo "rules" ["rules"] := ⟨rfl, rfl⟩

end Example

open Example in
/-- Two rule sets make one registry whichever comes first, which gives each of them for its list
type, and a second one for the days is refused. One broken file fails its folder, and it is the one
reported if the disk keeps the files the other way round. -/
theorem a_broken_file_fails_its_folder : broken.Proper ∧
    (∃ r, ofRuleSets [weekly, daily] = .ok r ∧ ofRuleSets [daily, weekly] = .ok r ∧
      r.rulesFor daily.listType = .ok daily ∧ r.rulesFor weekly.listType = .ok weekly) ∧
    (∀ r, ofRuleSets [daily, weekly, daily] ≠ .ok r) ∧
    ∃ e, ofFolder Bundled.libraries broken "rules" = .error e ∧
      ofFolder Bundled.libraries ⟨broken.entries.reverse, []⟩ "rules" = .error e := by
  obtain ⟨hmade, hfolder⟩ := registries_are_exact_in_any_order Bundled.libraries [weekly, daily]
    broken_proper "rules"
  obtain ⟨r, hr⟩ := hmade.made.mpr (by decide)
  have hswapped := hmade.anyOrder r [daily, weekly] hr (.swap weekly daily [])
  have hdaily := ((hmade.holds r hr).known daily.listType daily).mpr ⟨by simp, rfl⟩
  have hweekly := ((hmade.holds r hr).known weekly.listType weekly).mpr ⟨by simp, rfl⟩
  have hagain : ∀ r, ofRuleSets [daily, weekly, daily] ≠ .ok r := by
    obtain ⟨htwice, -⟩ := registries_are_exact_in_any_order Bundled.libraries
      [daily, weekly, daily] broken_proper "rules"
    intro r hr
    exact absurd (htwice.made.mp ⟨r, hr⟩) (by decide)
  obtain ⟨first, e, -, he⟩ := hfolder.invalid ["rules"] "daily.json"
    (.unreadable "rules/daily.json" .notText) broken_leadsTo ⟨[255], rfl⟩ ⟨.json, rfl, rfl⟩
  have hreverse := hfolder.anyOrder ⟨broken.entries.reverse, []⟩ rfl (List.reverse_perm _)
  exact ⟨broken_proper, ⟨r, hr, hswapped, hdaily, hweekly⟩, hagain, e, he, hreverse.trans he⟩

end CauseLists.Registry
