import ErrorTaxonomy.Loader
import ErrorTaxonomy.Proofs.DirectoryPaths
import ErrorTaxonomy.Proofs.NameOrder
import Mathlib.Data.List.Nodup
import Mathlib.Data.List.Perm.Basic

/-!
# What loading a directory sees

Two trees show a definition directory the same if it can be listed in both or fails
to be listed for the same reason, if the same names are those of errors files, and
if these files and the metadata files next to them agree in what they hold.  Then
the same fragments are loaded, or the same error is met, whatever else the trees
hold and however they enumerate the directory.
-/

namespace ErrorTaxonomy

namespace FileTree

variable {tree first second : FileTree} {path : String}

/-- What a path leads to, if anything. -/
def found? (tree : FileTree) (path : String) : Option FileEntry :=
  (tree.lookup path).toOption

/-- What comes of reading the regular file to which a path leads: its bytes, or the fault
with which the system refuses. -/
def reading? (tree : FileTree) (path : String) : Option (Except SystemFault ByteArray) :=
  match tree.found? path with
  | some (.file content refusal) => some (unlessRefused refusal (.ok content))
  | _ => none

theorem found?_eq_some_iff {entry : FileEntry} :
    tree.found? path = some entry ↔ tree.lookup path = .ok entry := by
  unfold found?
  cases tree.lookup path <;> simp [Except.toOption]

theorem lookup_eq_ok_iff {entry : FileEntry} :
    tree.lookup path = .ok entry ↔
      ∃ location, tree.locate path = .ok location ∧ tree.entry? location = some entry := by
  unfold lookup
  rw [bind_eq_ok_iff]
  refine exists_congr fun location => and_congr_right fun _ => ?_
  cases tree.entry? location with
  | none => simp
  | some found => simp [pure, Except.pure]

theorem reading?_eq_some_iff {reading : Except SystemFault ByteArray} :
    tree.reading? path = some reading ↔
      ∃ content refusal, tree.found? path = some (.file content refusal) ∧
        unlessRefused refusal (.ok content) = reading := by
  unfold reading?
  cases tree.found? path with
  | none => simp
  | some entry => cases entry <;> simp

theorem pathExists_eq (tree : FileTree) (path : String) :
    tree.pathExists path = (tree.found? path).isSome := by
  unfold pathExists found?
  cases tree.lookup path <;> rfl

theorem isFile_eq (tree : FileTree) (path : String) :
    tree.isFile path = (tree.reading? path).isSome := by
  unfold isFile reading? found?
  cases tree.lookup path with
  | error fault => rfl
  | ok entry => cases entry <;> rfl

theorem readText_eq {entry : FileEntry} (hfirst : first.found? path = some entry)
    (hsecond : second.found? path = some entry) :
    first.readText path = second.readText path := by
  rw [found?_eq_some_iff] at hfirst hsecond
  unfold readText
  rw [hfirst, hsecond]

theorem readText_eq_of_reading? {reading : Except SystemFault ByteArray}
    (hreading : tree.reading? path = some reading) :
    tree.readText path = (reading >>= decodeText) := by
  obtain ⟨content, refusal, hfound, rfl⟩ := reading?_eq_some_iff.mp hreading
  unfold readText
  rw [found?_eq_some_iff.mp hfound]
  rfl

theorem readText_congr (hsame : first.reading? path = second.reading? path)
    (hfile : (first.reading? path).isSome) : first.readText path = second.readText path := by
  obtain ⟨reading, hfirst⟩ := Option.isSome_iff_exists.mp hfile
  have hsecond : second.reading? path = some reading := hsame ▸ hfirst
  rw [readText_eq_of_reading? hfirst, readText_eq_of_reading? hsecond]

/-! ## Listings -/

/-- A directory lists each name once. -/
theorem nodup_of_listDirectory {names : List String}
    (hlisted : tree.listDirectory path = .ok names) : names.Nodup := by
  obtain ⟨location, -, rfl⟩ := listDirectory_eq_ok_iff.mp hlisted
  have hlocations : tree.namesIn location =
      (tree.entries.map Prod.fst).filterMap (nameIn? location) := by
    rw [List.filterMap_map]
    rfl
  rw [hlocations]
  apply tree.distinct.filterMap
  intro place other name hplace hother
  rw [nameIn?_eq_some_iff.mp hplace, nameIn?_eq_some_iff.mp hother]

end FileTree

/-! ## Definition directories -/

namespace DefinitionDirectory

/-- A name of a directory with the errors suffix, and that of a regular file. -/
def Lists (directory : DefinitionDirectory) (tree : FileTree) (name : String) : Prop :=
  ∃ names, tree.listDirectory directory.path = .ok names ∧ name ∈ names ∧
    directory.suffixes.errors.toList <:+ name.toList ∧
    (tree.reading? (joinPath directory.path name)).isSome

/-- Two trees show a definition directory the same. -/
structure SameFiles (directory : DefinitionDirectory) (first second : FileTree) :
    Prop where
  fault_iff : ∀ fault, first.listDirectory directory.path = .error fault ↔
    second.listDirectory directory.path = .error fault
  lists_iff : ∀ name, directory.Lists first name ↔ directory.Lists second name
  errors_eq : ∀ name, directory.Lists first name →
    first.reading? (joinPath directory.path name) =
      second.reading? (joinPath directory.path name)
  metadata_eq : ∀ name, directory.Lists first name →
    first.reading? (directory.suffixes.metadataPath (joinPath directory.path name)) =
      second.reading? (directory.suffixes.metadataPath (joinPath directory.path name))

variable {directory : DefinitionDirectory} {tree first second : FileTree} {name : String}

theorem isErrorsFile_iff : directory.isErrorsFile tree name = true ↔
    directory.suffixes.errors.toList <:+ name.toList ∧
      (tree.reading? (joinPath directory.path name)).isSome := by
  have hsuffix : (beforeSuffix? directory.suffixes.errors name).isSome = true ↔
      directory.suffixes.errors.toList <:+ name.toList := by
    unfold beforeSuffix?
    rw [← List.isSuffixOf_iff_suffix]
    by_cases hends : directory.suffixes.errors.toList.isSuffixOf name.toList = true <;>
      simp [hends]
  rw [isErrorsFile, Bool.and_eq_true, hsuffix, FileTree.isFile_eq]

theorem mem_filter_iff_lists {names : List String}
    (hlisted : tree.listDirectory directory.path = .ok names) :
    name ∈ names.filter (directory.isErrorsFile tree) ↔ directory.Lists tree name := by
  rw [List.mem_filter, isErrorsFile_iff]
  constructor
  · intro hmem
    exact ⟨names, hlisted, hmem⟩
  · rintro ⟨others, hothers, hmem⟩
    obtain rfl := Except.ok.inj (hlisted.symm.trans hothers)
    exact hmem

theorem mem_errorsFiles {files : List String} {path : String}
    (hfiles : directory.errorsFiles tree = .ok files) (hmem : path ∈ files) :
    ∃ name, directory.Lists tree name ∧ path = joinPath directory.path name := by
  unfold errorsFiles at hfiles
  cases hlisted : tree.listDirectory directory.path with
  | error fault => simp [hlisted] at hfiles
  | ok names =>
      simp only [hlisted] at hfiles
      obtain rfl := Except.ok.inj hfiles
      rcases List.mem_map.mp hmem with ⟨name, hname, rfl⟩
      rw [List.mem_mergeSort, mem_filter_iff_lists hlisted] at hname
      exact ⟨name, hname, rfl⟩

namespace SameFiles

theorem errorsFiles_eq (hsame : directory.SameFiles first second) :
    directory.errorsFiles first = directory.errorsFiles second := by
  unfold errorsFiles
  cases hfirst : first.listDirectory directory.path with
  | error fault => rw [(hsame.fault_iff fault).mp hfirst]
  | ok names =>
      cases hsecond : second.listDirectory directory.path with
      | error fault =>
          have hfault := (hsame.fault_iff fault).mpr hsecond
          simp [hfirst] at hfault
      | ok others =>
          have hperm : (names.filter (directory.isErrorsFile first)).Perm
              (others.filter (directory.isErrorsFile second)) := by
            rw [List.perm_ext_iff_of_nodup
              ((FileTree.nodup_of_listDirectory hfirst).filter _)
              ((FileTree.nodup_of_listDirectory hsecond).filter _)]
            intro name
            rw [mem_filter_iff_lists hfirst, mem_filter_iff_lists hsecond,
              hsame.lists_iff]
          simp only [mergeSort_nameLe_eq hperm]

theorem readPair_eq (hsame : directory.SameFiles first second)
    (hlists : directory.Lists first name) :
    readPair first directory.suffixes (joinPath directory.path name) =
      readPair second directory.suffixes (joinPath directory.path name) := by
  have herrors := hsame.errors_eq name hlists
  have hmetadata := hsame.metadata_eq name hlists
  obtain ⟨_, _, _, _, hfile⟩ := hlists
  have htext : first.readText (joinPath directory.path name) =
      second.readText (joinPath directory.path name) :=
    FileTree.readText_congr herrors hfile
  unfold readPair
  simp only [FileTree.isFile_eq, ← hmetadata]
  by_cases hpaired : (first.reading?
      (directory.suffixes.metadataPath (joinPath directory.path name))).isSome = true
  · have hmetadataText := FileTree.readText_congr hmetadata hpaired
    simp only [if_pos hpaired, readDefinitionFile, htext, hmetadataText]
  · simp only [if_neg hpaired]

end SameFiles

end DefinitionDirectory

theorem loadFiles_eq {first second : FileTree} {suffixes : Suffixes} {paths : List String}
    (hread : ∀ path ∈ paths, readPair first suffixes path = readPair second suffixes path) :
    loadFiles first suffixes paths = loadFiles second suffixes paths := by
  induction paths with
  | nil => rfl
  | cons path paths ih =>
      rw [List.forall_mem_cons] at hread
      have hloaded : loadFile first suffixes path = loadFile second suffixes path := by
        rw [loadFile, loadFile, hread.1]
      rw [loadFiles, loadFiles, hloaded, ih hread.2]

theorem Traced.bind_congr {ε α β : Type} {computation : Traced ε α}
    {next other : α → Traced ε β}
    (hnext : ∀ value, computation.outcome = .ok value → next value = other value) :
    computation >>= next = computation >>= other := by
  change Traced.bind computation next = Traced.bind computation other
  unfold Traced.bind
  cases houtcome : computation.outcome with
  | error error => rfl
  | ok value => simp only [hnext value houtcome]

/-- Trees that show a directory the same load the same, with the same journal. -/
theorem loadDirectory_eq {directory : DefinitionDirectory} {first second : FileTree}
    (hsame : directory.SameFiles first second) :
    loadDirectory first directory = loadDirectory second directory := by
  unfold loadDirectory
  rw [← hsame.errorsFiles_eq]
  apply Traced.bind_congr
  intro _ _
  apply Traced.bind_congr
  intro files hfiles
  have hloaded : loadFiles first directory.suffixes files =
      loadFiles second directory.suffixes files := by
    apply loadFiles_eq
    intro path hmem
    obtain ⟨name, hlists, rfl⟩ := DefinitionDirectory.mem_errorsFiles hfiles hmem
    exact hsame.readPair_eq hlists
  rw [hloaded]

end ErrorTaxonomy
