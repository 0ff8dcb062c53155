import ErrorTaxonomy.Pipeline
import ErrorTaxonomy.Proofs.DirectoryView
import Mathlib.Data.List.Sort

/-!
# Listings of errors files

A directory's errors files are listed in strictly ascending order of the bytes of their
names.  Such a list is determined by its members, and these are the regular files of the
directory whose names end in the errors suffix.  So it does not matter in which order a
file system enumerates its entries: the same files are listed, the same fragments are
loaded in the same order, and the same model or error comes of them.
-/

namespace ErrorTaxonomy

namespace FileTree

variable {tree first second : FileTree} {path name : String} {location : Location}

theorem NamesDirectory.found?_joinPath (hdirectory : tree.NamesDirectory path location)
    (hname : IsFileName name) :
    tree.found? (joinPath path name) = tree.entry? (location ++ [name]) := by
  have hlocate := hdirectory.locate_joinPath hname.ne_empty hname.slash_notMem
  rw [follow_eq_append hname] at hlocate
  apply Option.ext
  intro entry
  rw [found?_eq_some_iff, lookup_eq_ok_iff]
  constructor
  · intro hfound
    rcases hfound with ⟨place, hplace, hentry⟩
    obtain rfl := Except.ok.inj (hlocate.symm.trans hplace)
    exact hentry
  · intro hentry
    exact ⟨_, hlocate, hentry⟩

/-! ## Orders of enumeration -/

/-- Two trees hold the same entries, enumerated in any two orders. -/
structure Reenumerated (first second : FileTree) : Prop where
  entries_perm : first.entries.Perm second.entries
  current_eq : first.current = second.current
  root_eq : first.root = second.root

namespace Reenumerated

theorem symm (hsame : first.Reenumerated second) : second.Reenumerated first where
  entries_perm := hsame.entries_perm.symm
  current_eq := hsame.current_eq.symm
  root_eq := hsame.root_eq.symm

theorem entry?_eq (hsame : first.Reenumerated second) (location : Location) :
    first.entry? location = second.entry? location := by
  by_cases hroot : location = []
  · rw [FileTree.entry?, FileTree.entry?, if_pos hroot, if_pos hroot, hsame.root_eq]
  · apply Option.ext
    intro entry
    rw [entry?_eq_some_iff hroot, entry?_eq_some_iff hroot, hsame.entries_perm.mem_iff]

theorem walk_eq (hsame : first.Reenumerated second) (start : Location)
    (names : List String) : first.walk start names = second.walk start names := by
  induction names generalizing start with
  | nil => rfl
  | cons name names ih =>
      have hrequired : first.requireDirectory start = second.requireDirectory start := by
        rw [requireDirectory, requireDirectory, hsame.entry?_eq]
      rw [walk_cons, walk_cons, hrequired]
      simp only [ih]

theorem locate_eq (hsame : first.Reenumerated second) (path : String) :
    first.locate path = second.locate path := by
  rw [FileTree.locate, FileTree.locate, walkStart, walkStart, hsame.current_eq]
  simp only [hsame.walk_eq]

theorem reading?_eq (hsame : first.Reenumerated second) (path : String) :
    first.reading? path = second.reading? path := by
  have hfound : first.found? path = second.found? path := by
    rw [found?, found?, lookup, lookup, hsame.locate_eq]
    simp only [hsame.entry?_eq]
  rw [reading?, reading?, hfound]

theorem unlistable (hsame : first.Reenumerated second) {fault : SystemFault}
    (hfault : first.Unlistable path fault) : second.Unlistable path fault := by
  cases hfault with
  | unreachable hlocate => exact .unreachable (hsame.locate_eq path ▸ hlocate)
  | absent hlocate hentry =>
      exact .absent (hsame.locate_eq path ▸ hlocate) (hsame.entry?_eq _ ▸ hentry)
  | file hlocate hentry =>
      exact .file (hsame.locate_eq path ▸ hlocate) (hsame.entry?_eq _ ▸ hentry)
  | closed hlocate hentry hopening =>
      exact .closed (hsame.locate_eq path ▸ hlocate) (hsame.entry?_eq _ ▸ hentry) hopening
  | brokenOff hlocate hentry hopened hcontinuing =>
      exact .brokenOff (hsame.locate_eq path ▸ hlocate) (hsame.entry?_eq _ ▸ hentry) hopened
        hcontinuing

theorem namesDirectory (hsame : first.Reenumerated second)
    (hdirectory : first.NamesDirectory path location) :
    second.NamesDirectory path location :=
  .of_locate (hsame.locate_eq path ▸ hdirectory.locate_eq)
    (hsame.entry?_eq location ▸ hdirectory.entry_eq)

end Reenumerated

end FileTree

theorem toList_suffix_iff {suffix name : String} :
    suffix.toList <:+ name.toList ↔ ∃ base, name = base ++ suffix := by
  constructor
  · intro hsuffix
    rcases hsuffix with ⟨base, hbase⟩
    refine ⟨String.ofList base, ?_⟩
    rw [← String.toList_inj, String.toList_append, String.toList_ofList, hbase]
  · intro hbase
    rcases hbase with ⟨base, rfl⟩
    exact ⟨base.toList, by rw [String.toList_append]⟩

namespace DefinitionDirectory

variable {directory : DefinitionDirectory} {tree first second : FileTree} {name : String}
  {names others : List String} {location : Location}

/-! ## Listed names -/

theorem lists_iff : directory.Lists tree name ↔
    ∃ location, tree.NamesDirectory directory.path location ∧
      tree.entry? (location ++ [name]) ≠ none ∧
      directory.suffixes.errors.toList <:+ name.toList ∧
      (tree.reading? (joinPath directory.path name)).isSome := by
  constructor
  · intro hlists
    rcases hlists with ⟨names, hlisted, hmem, hrest⟩
    obtain ⟨location, hdirectory⟩ := FileTree.exists_namesDirectory hlisted
    obtain ⟨others, hothers, hmem_iff⟩ := hdirectory.mem_listDirectory
    obtain rfl := Except.ok.inj (hlisted.symm.trans hothers)
    exact ⟨location, hdirectory, (hmem_iff name).mp hmem, hrest⟩
  · intro hlists
    rcases hlists with ⟨location, hdirectory, hentry, hrest⟩
    obtain ⟨names, hlisted, hmem_iff⟩ := hdirectory.mem_listDirectory
    exact ⟨names, hlisted, (hmem_iff name).mpr hentry, hrest⟩

theorem lists_of_reenumerated (hsame : first.Reenumerated second)
    (hlists : directory.Lists first name) : directory.Lists second name := by
  rw [lists_iff] at hlists ⊢
  rcases hlists with ⟨location, hdirectory, hentry, hsuffix, hfile⟩
  refine ⟨location, hsame.namesDirectory hdirectory, ?_, hsuffix, ?_⟩
  · rwa [← hsame.entry?_eq]
  · rwa [← hsame.reading?_eq]

theorem sameFiles_of_reenumerated (hsame : first.Reenumerated second) :
    directory.SameFiles first second where
  fault_iff fault := by
    rw [FileTree.listDirectory_eq_error_iff, FileTree.listDirectory_eq_error_iff]
    exact ⟨hsame.unlistable, hsame.symm.unlistable⟩
  lists_iff name := ⟨lists_of_reenumerated hsame, lists_of_reenumerated hsame.symm⟩
  errors_eq name _ := hsame.reading?_eq _
  metadata_eq name _ := hsame.reading?_eq _

/-- The names of the errors files, in strictly ascending order of their bytes. -/
structure ListedInOrder (directory : DefinitionDirectory) (tree : FileTree)
    (names : List String) : Prop where
  listable : ∃ location, tree.NamesDirectory directory.path location
  mem_iff : ∀ name, name ∈ names ↔ directory.Lists tree name
  ascending : names.Pairwise fun a b => nameBytes a < nameBytes b

theorem ListedInOrder.unique (hnames : directory.ListedInOrder tree names)
    (hothers : directory.ListedInOrder tree others) : names = others := by
  have hascending : ∀ {names}, directory.ListedInOrder tree names →
      names.Pairwise (· < ·) := fun hnames => hnames.ascending.imp nameBytes_lt_iff.mp
  apply List.Pairwise.eq_of_mem_iff (hascending hnames) (hascending hothers)
  intro name
  rw [hnames.mem_iff, hothers.mem_iff]

theorem errorsFiles_eq_error_iff {error : LoadError} :
    directory.errorsFiles tree = .error error ↔
      ∃ fault, tree.Unlistable directory.path fault ∧
        error = .unreadable directory.path fault := by
  unfold errorsFiles
  simp only [← FileTree.listDirectory_eq_error_iff]
  cases tree.listDirectory directory.path with
  | error fault => simp [eq_comm]
  | ok names => simp

theorem exists_listedInOrder (hdirectory : tree.NamesDirectory directory.path location) :
    ∃ names, directory.ListedInOrder tree names ∧
      directory.errorsFiles tree = .ok (names.map (joinPath directory.path)) := by
  obtain ⟨entries, hlisted, -⟩ := hdirectory.mem_listDirectory
  refine ⟨(entries.filter (directory.isErrorsFile tree)).mergeSort nameLe, ?_, ?_⟩
  · refine ⟨⟨location, hdirectory⟩, ?_, ?_⟩
    · intro name
      rw [List.mem_mergeSort, mem_filter_iff_lists hlisted]
    · exact pairwise_nameBytes_mergeSort ((FileTree.nodup_of_listDirectory hlisted).filter _)
  · rw [errorsFiles, hlisted]

theorem errorsFiles_eq_ok_iff {files : List String} :
    directory.errorsFiles tree = .ok files ↔
      ∃ names, directory.ListedInOrder tree names ∧
        files = names.map (joinPath directory.path) := by
  constructor
  · intro hfiles
    cases hlisted : tree.listDirectory directory.path with
    | error fault => simp [errorsFiles, hlisted] at hfiles
    | ok entries =>
        obtain ⟨location, hdirectory⟩ := FileTree.exists_namesDirectory hlisted
        obtain ⟨names, hnames, hordered⟩ := exists_listedInOrder hdirectory
        exact ⟨names, hnames, Except.ok.inj (hfiles.symm.trans hordered)⟩
  · intro hfiles
    rcases hfiles with ⟨names, hnames, rfl⟩
    obtain ⟨location, hdirectory⟩ := hnames.listable
    obtain ⟨others, hothers, hordered⟩ := exists_listedInOrder hdirectory
    rw [hordered, hnames.unique hothers]

/-! ## Regular files with the errors suffix -/

/-- A regular file with the errors suffix stands right below a location. -/
structure HoldsErrorsFile (directory : DefinitionDirectory) (tree : FileTree)
    (location : Location) (name : String) : Prop where
  isFile : ∃ content refusal, tree.entry? (location ++ [name]) = some (.file content refusal)
  suffix : ∃ base, name = base ++ directory.suffixes.errors

theorem lists_iff_holdsErrorsFile (hnamed : tree.WellNamed)
    (hdirectory : tree.NamesDirectory directory.path location) :
    directory.Lists tree name ↔ directory.HoldsErrorsFile tree location name := by
  rw [lists_iff]
  constructor
  · intro hlists
    rcases hlists with ⟨place, hplace, hentry, hsuffix, hfile⟩
    obtain rfl := hdirectory.unique hplace
    obtain ⟨reading, hreading⟩ := Option.isSome_iff_exists.mp hfile
    obtain ⟨content, refusal, hfound, -⟩ := FileTree.reading?_eq_some_iff.mp hreading
    rw [hdirectory.found?_joinPath (hnamed.isFileName hentry)] at hfound
    exact ⟨⟨content, refusal, hfound⟩, toList_suffix_iff.mp hsuffix⟩
  · intro hholds
    obtain ⟨content, refusal, hentry⟩ := hholds.isFile
    have hpresent : tree.entry? (location ++ [name]) ≠ none := by simp [hentry]
    refine ⟨location, hdirectory, hpresent, toList_suffix_iff.mpr hholds.suffix, ?_⟩
    rw [Option.isSome_iff_exists]
    refine ⟨_, FileTree.reading?_eq_some_iff.mpr ⟨content, refusal, ?_, rfl⟩⟩
    rw [hdirectory.found?_joinPath (hnamed.isFileName hpresent), hentry]

/-- What listing the errors files comes to.  Either the directory cannot be listed, or
its regular files with the errors suffix are, each once and in strictly ascending order
of the bytes of their names. -/
inductive Listing (directory : DefinitionDirectory) (tree : FileTree) :
    Except LoadError (List String) → Prop
  | refused {fault : SystemFault} :
      tree.Unlistable directory.path fault →
        Listing directory tree (.error (.unreadable directory.path fault))
  | listed {location : Location} {names : List String} :
      tree.NamesDirectory directory.path location →
        (∀ name, name ∈ names ↔ directory.HoldsErrorsFile tree location name) →
        (names.Pairwise fun a b => nameBytes a < nameBytes b) →
        Listing directory tree (.ok (names.map (joinPath directory.path)))

theorem listing_errorsFiles (hnamed : tree.WellNamed) :
    directory.Listing tree (directory.errorsFiles tree) := by
  cases hfiles : directory.errorsFiles tree with
  | error error =>
      obtain ⟨fault, hfault, rfl⟩ := errorsFiles_eq_error_iff.mp hfiles
      exact .refused hfault
  | ok files =>
      obtain ⟨names, hnames, rfl⟩ := errorsFiles_eq_ok_iff.mp hfiles
      obtain ⟨location, hdirectory⟩ := hnames.listable
      refine .listed hdirectory ?_ hnames.ascending
      intro name
      rw [hnames.mem_iff, lists_iff_holdsErrorsFile hnamed hdirectory]

end DefinitionDirectory

/-- The errors files are listed by their names alone, and all that is made of them is the
same for every order in which the entries are enumerated. -/
theorem errorsFiles_canonical {directory : DefinitionDirectory} {first second : FileTree}
    (hnamed : first.WellNamed) (hsame : first.Reenumerated second) :
    directory.Listing first (directory.errorsFiles first) ∧
      directory.errorsFiles first = directory.errorsFiles second ∧
      loadDirectory first directory = loadDirectory second directory ∧
      ∀ configuration,
        compileDirectory configuration first directory.path =
          compileDirectory configuration second directory.path := by
  refine ⟨DefinitionDirectory.listing_errorsFiles hnamed, ?_, ?_, ?_⟩
  · exact (DefinitionDirectory.sameFiles_of_reenumerated hsame).errorsFiles_eq
  · exact loadDirectory_eq (DefinitionDirectory.sameFiles_of_reenumerated hsame)
  · intro configuration
    unfold compileDirectory
    simp only [loadDirectory_eq (DefinitionDirectory.sameFiles_of_reenumerated hsame)]

/-- Two pairs of definition files, a directory that is named like an errors file, and a
text of another kind. -/
def shelvedTree : FileTree where
  entries :=
    [(["defs"], .directory),
      (["defs", "été.errors.yaml"], .file "- name: Hot\n".toUTF8),
      (["defs", "tape.errors.yaml"], .file "- name: Torn\n".toUTF8),
      (["defs", "cloud.errors.yaml"], .directory),
      (["defs", "README.md"], .file "errors".toUTF8),
      (["defs", "été.metadata.yaml"], .file "- name: Hot\n  level: ERR\n".toUTF8),
      (["defs", "tape.metadata.yaml"], .file "- name: Torn\n  level: ERR\n".toUTF8)]
  current := []
  distinct := by decide

/-- The same files, enumerated the other way round. -/
def reshelvedTree : FileTree where
  entries := shelvedTree.entries.reverse
  current := []
  distinct := by decide

theorem shelvedTree_errorsFiles :
    DefinitionDirectory.errorsFiles { path := "defs", suffixes := {} } shelvedTree =
      .ok ["defs/tape.errors.yaml", "defs/été.errors.yaml"] := by
  let directory : DefinitionDirectory := { path := "defs", suffixes := {} }
  have hlisted : shelvedTree.listDirectory "defs" =
      .ok ["été.errors.yaml", "tape.errors.yaml", "cloud.errors.yaml", "README.md",
        "été.metadata.yaml", "tape.metadata.yaml"] := by decide +kernel
  have hfiltered : ["été.errors.yaml", "tape.errors.yaml", "cloud.errors.yaml", "README.md",
      "été.metadata.yaml", "tape.metadata.yaml"].filter (directory.isErrorsFile shelvedTree) =
        ["été.errors.yaml", "tape.errors.yaml"] := by decide +kernel
  have hsorted : ["été.errors.yaml", "tape.errors.yaml"].mergeSort nameLe =
      ["tape.errors.yaml", "été.errors.yaml"] := by
    rw [mergeSort_nameLe_eq (List.Perm.swap "tape.errors.yaml" "été.errors.yaml" [])]
    exact List.mergeSort_of_pairwise (by decide +kernel)
  rw [DefinitionDirectory.errorsFiles, hlisted]
  simp only [directory] at hfiltered
  simp only [hfiltered, hsorted]
  decide +kernel

theorem shelvedTree_canonical :
    shelvedTree.WellNamed ∧ shelvedTree.Reenumerated reshelvedTree ∧
      DefinitionDirectory.Listing { path := "defs", suffixes := {} } shelvedTree
        (.ok ["defs/tape.errors.yaml", "defs/été.errors.yaml"]) ∧
      loadDirectory shelvedTree { path := "defs", suffixes := {} } =
        loadDirectory reshelvedTree { path := "defs", suffixes := {} } := by
  have hnamed : shelvedTree.WellNamed := by decide +kernel
  have hsame : shelvedTree.Reenumerated reshelvedTree :=
    ⟨(List.reverse_perm _).symm, rfl, rfl⟩
  obtain ⟨hlisting, -, hloaded, -⟩ :=
    @errorsFiles_canonical { path := "defs", suffixes := {} } _ _ hnamed hsame
  rw [shelvedTree_errorsFiles] at hlisting
  exact ⟨hnamed, hsame, hlisting, hloaded⟩

end ErrorTaxonomy
