import ErrorTaxonomy.Proofs.LoadOutcome

/-!
# Pairs of definition files

An errors file and its metadata file have one base: what comes before the errors suffix
in one name comes before the metadata suffix in the other.  A base belongs to one errors
file of the directory, so different errors files have different interfaces and different
metadata files, and where neither suffix ends in the other, no metadata file is taken for
an errors file.
-/

namespace ErrorTaxonomy

/-! ## Suffixes -/

theorem beforeSuffix?_append (base suffix : String) :
    beforeSuffix? suffix (base ++ suffix) = some base := by
  have hsuffix : suffix.toList.isSuffixOf (base ++ suffix).toList = true := by
    rw [List.isSuffixOf_iff_suffix, String.toList_append]
    exact List.suffix_append _ _
  rw [beforeSuffix?, if_pos hsuffix, String.length_append, Nat.add_sub_cancel]
  rw [String.toList_append, List.take_left' String.length_toList, String.ofList_toList]

theorem suffix_or_suffix_of_append_eq {base other suffix ending : String}
    (heq : base ++ suffix = other ++ ending) :
    suffix.toList <:+ ending.toList ∨ ending.toList <:+ suffix.toList := by
  have hsuffix : suffix.toList <:+ (base ++ suffix).toList := toList_suffix_iff.mpr ⟨base, rfl⟩
  have hending : ending.toList <:+ (base ++ suffix).toList :=
    toList_suffix_iff.mpr ⟨other, heq⟩
  exact List.suffix_or_suffix_of_suffix hsuffix hending

theorem interface?_joinPath {suffixes : Suffixes} {path base : String} (hpath : path ≠ "")
    (hname : IsFileName (base ++ suffixes.errors)) :
    suffixes.interface? (joinPath path (base ++ suffixes.errors)) =
      if base = "" then none else some base := by
  unfold Suffixes.interface?
  rw [fileName?_joinPath hpath hname]
  change (beforeSuffix? suffixes.errors (base ++ suffixes.errors) >>= _) = _
  rw [beforeSuffix?_append]
  rfl

theorem name_eq_of_joinPath_eq {path other name ending : String} (hpath : path ≠ "")
    (hother : other ≠ "") (hname : '/' ∉ name.toList) (hending : '/' ∉ ending.toList)
    (heq : joinPath path name = joinPath other ending) : name = ending := by
  obtain ⟨first, rest, hsplit, -, -⟩ := splitSegments_joinPath hpath hname
  obtain ⟨other_first, other_rest, hother_split, -, -⟩ := splitSegments_joinPath hother hending
  rw [heq, hother_split, ← List.cons_append, ← List.cons_append] at hsplit
  have hlast : [ending.toList] = [name.toList] := List.append_inj_right' hsplit rfl
  exact (String.toList_inj.mp (List.cons.inj hlast).1).symm

theorem FileTree.length_follow (location : Location) (name : String) :
    (FileTree.follow location name).length =
      if name = "." then location.length
      else if name = ".." then location.length - 1 else location.length + 1 := by
  unfold FileTree.follow
  split_ifs <;> simp

/-- Two names that lead from a directory to one place are the same, unless they lead to
the root. -/
theorem FileTree.follow_inj {location : Location} {name other : String}
    (heq : FileTree.follow location name = FileTree.follow location other)
    (hroot : FileTree.follow location name ≠ []) : name = other := by
  have hlength := congrArg List.length heq
  have hpos := List.length_pos_of_ne_nil hroot
  rw [FileTree.length_follow] at hpos
  rw [FileTree.length_follow, FileTree.length_follow] at hlength
  unfold FileTree.follow at heq
  split_ifs at heq hlength hpos
  -- names of different kinds lead to locations of different lengths
  any_goals omega
  · simp_all
  · simp_all
  · simpa using heq

/-! ## One pair -/

namespace DefinitionDirectory

variable {directory : DefinitionDirectory} {tree : FileTree} {location : Location}
  {path other name base : String} {names files : List String}

/-- An errors file and its metadata file below one directory have the same base, which is
the interface, or empty if there is none.  The metadata file may turn out to be named by a
single or a double dot, with a suffix made of dots.  These two are no names of files: the
last name of a path that ends in the one is what comes before it, and a path that ends in
the other has none.  No regular file stands where such a path leads. -/
structure PairedBy (directory : DefinitionDirectory) (tree : FileTree) (location : Location)
    (path base : String) : Prop where
  slash_notMem : '/' ∉ base.toList
  interface_eq : directory.suffixes.interface? path = if base = "" then none else some base
  fileName_eq : fileName? path = some (base ++ directory.suffixes.errors)
  locate_eq : tree.locate path = .ok (location ++ [base ++ directory.suffixes.errors])
  parent : tree.NamesDirectory ((parentPath? path).getD "") location
  metadataPath_eq : directory.suffixes.metadataPath path =
    joinPath ((parentPath? path).getD "") (base ++ directory.suffixes.metadata)
  metadataName_eq : base ++ directory.suffixes.metadata ≠ "." →
    base ++ directory.suffixes.metadata ≠ ".." →
      fileName? (directory.suffixes.metadataPath path) =
        some (base ++ directory.suffixes.metadata)
  locate_metadata : tree.locate (directory.suffixes.metadataPath path) =
    .ok (FileTree.follow location (base ++ directory.suffixes.metadata))

theorem pairedBy_of_isFileName (hdirectory : tree.NamesDirectory directory.path location)
    (hmetadata : directory.suffixes.metadata ≠ "")
    (hslash : '/' ∉ directory.suffixes.metadata.toList)
    (hname : IsFileName (base ++ directory.suffixes.errors)) :
    directory.PairedBy tree location
      (joinPath directory.path (base ++ directory.suffixes.errors)) base := by
  have hinterface := interface?_joinPath hdirectory.ne_empty hname
  have hparent := hdirectory.parent hname
  have hbase : '/' ∉ base.toList := by
    intro hmem
    apply hname.slash_notMem
    rw [String.toList_append]
    exact List.mem_append_left _ hmem
  have hpairedSlash : '/' ∉ (base ++ directory.suffixes.metadata).toList := by
    rw [String.toList_append, List.mem_append, not_or]
    exact ⟨hbase, hslash⟩
  have hpairedNe : base ++ directory.suffixes.metadata ≠ "" := by
    simp [hmetadata]
  have hdefault : (if base = "" then none else some base : Option String).getD "" = base := by
    split_ifs with hempty
    · exact hempty.symm
    · rfl
  have hmetadataPath : directory.suffixes.metadataPath
      (joinPath directory.path (base ++ directory.suffixes.errors)) =
        joinPath ((parentPath? (joinPath directory.path
          (base ++ directory.suffixes.errors))).getD "")
          (base ++ directory.suffixes.metadata) := by
    rw [Suffixes.metadataPath, withFileName, fileName?_joinPath hdirectory.ne_empty hname,
      hinterface, hdefault]
  constructor
  · exact hbase
  · exact hinterface
  · exact fileName?_joinPath hdirectory.ne_empty hname
  · rw [hdirectory.locate_joinPath hname.ne_empty hname.slash_notMem,
      FileTree.follow_eq_append hname]
  · exact hparent
  · exact hmetadataPath
  · intro hhere habove
    have hpaired : IsFileName (base ++ directory.suffixes.metadata) :=
      ⟨hpairedNe, hpairedSlash, hhere, habove⟩
    rw [hmetadataPath, fileName?_joinPath hparent.ne_empty hpaired]
  · rw [hmetadataPath, hparent.locate_joinPath hpairedNe hpairedSlash]

namespace PairedBy

variable {otherBase : String}

theorem slash_notMem_metadata (hpath : directory.PairedBy tree location path base)
    (hslash : '/' ∉ directory.suffixes.metadata.toList) :
    '/' ∉ (base ++ directory.suffixes.metadata).toList := by
  rw [String.toList_append, List.mem_append, not_or]
  exact ⟨hpath.slash_notMem, hslash⟩

theorem base_eq_of_interface?_eq (hpath : directory.PairedBy tree location path base)
    (hother : directory.PairedBy tree location other otherBase)
    (heq : directory.suffixes.interface? path = directory.suffixes.interface? other) :
    base = otherBase := by
  rw [hpath.interface_eq, hother.interface_eq] at heq
  split_ifs at heq with hbase hotherBase
  · rw [hbase, hotherBase]
  · exact Option.some.inj heq

theorem base_eq_of_metadataPath_eq (hpath : directory.PairedBy tree location path base)
    (hother : directory.PairedBy tree location other otherBase)
    (hslash : '/' ∉ directory.suffixes.metadata.toList)
    (heq : directory.suffixes.metadataPath path = directory.suffixes.metadataPath other) :
    base = otherBase := by
  rw [hpath.metadataPath_eq, hother.metadataPath_eq] at heq
  have hnames := name_eq_of_joinPath_eq hpath.parent.ne_empty hother.parent.ne_empty
    (hpath.slash_notMem_metadata hslash) (hother.slash_notMem_metadata hslash) heq
  simpa using hnames

/-- Two bases with one metadata file are the same. -/
theorem base_eq_of_locate_eq (hpath : directory.PairedBy tree location path base)
    (hother : directory.PairedBy tree location other otherBase) {place : Location}
    {content : ByteArray} {refusal : Option SystemFault}
    (hentry : tree.entry? place = some (.file content refusal))
    (hplace : tree.locate (directory.suffixes.metadataPath path) = .ok place)
    (hotherPlace : tree.locate (directory.suffixes.metadataPath other) = .ok place) :
    base = otherBase := by
  have hfollow := Except.ok.inj (hpath.locate_metadata.symm.trans hplace)
  have hotherFollow := Except.ok.inj (hother.locate_metadata.symm.trans hotherPlace)
  have hroot : place ≠ [] := by
    intro hempty
    subst hempty
    simp [FileTree.entry?] at hentry
  have hnames := FileTree.follow_inj (hfollow.trans hotherFollow.symm) (hfollow ▸ hroot)
  simpa using hnames

/-- A metadata file that is an errors file as well makes one suffix end in the other. -/
theorem suffix_or_suffix_of_locate_eq (hpath : directory.PairedBy tree location path base)
    (hother : directory.PairedBy tree location other otherBase) {place : Location}
    (hname : IsFileName (otherBase ++ directory.suffixes.errors))
    (hplace : tree.locate (directory.suffixes.metadataPath path) = .ok place)
    (hotherPlace : tree.locate other = .ok place) :
    directory.suffixes.errors.toList <:+ directory.suffixes.metadata.toList ∨
      directory.suffixes.metadata.toList <:+ directory.suffixes.errors.toList := by
  have hfollow := Except.ok.inj (hpath.locate_metadata.symm.trans hplace)
  have hlocated := Except.ok.inj (hother.locate_eq.symm.trans hotherPlace)
  rw [← hlocated, ← FileTree.follow_eq_append hname] at hfollow
  have hroot : FileTree.follow location (base ++ directory.suffixes.metadata) ≠ [] := by
    rw [hfollow, FileTree.follow_eq_append hname]
    simp
  exact (suffix_or_suffix_of_append_eq (FileTree.follow_inj hfollow hroot)).symm

end PairedBy

/-! ## All pairs of a directory -/

/-- The errors files of a directory and their metadata files go together one to one, and
so do the fragments that are loaded and their interfaces. -/
structure PairsOneToOne (directory : DefinitionDirectory) (tree : FileTree)
    (files : List String) : Prop where
  paired : ∃ location, tree.NamesDirectory directory.path location ∧
    ∀ path ∈ files, ∃ base, directory.PairedBy tree location path base
  interfaces_nodup : (files.map directory.suffixes.interface?).Nodup
  metadataPaths_nodup : (files.map directory.suffixes.metadataPath).Nodup
  metadata_apart : files.Pairwise fun path other => ∀ place content refusal,
    tree.entry? place = some (.file content refusal) →
      tree.locate (directory.suffixes.metadataPath path) = .ok place →
        tree.locate (directory.suffixes.metadataPath other) ≠ .ok place
  fragments_nodup : ∀ fragments, (loadDirectory tree directory).outcome = .ok fragments →
    (fragments.map Fragment.interface).Nodup ∧
      (fragments.map Fragment.interface).count none ≤ 1
  metadata_unlisted :
    ¬ directory.suffixes.errors.toList <:+ directory.suffixes.metadata.toList →
      ¬ directory.suffixes.metadata.toList <:+ directory.suffixes.errors.toList →
        ∀ path ∈ files, ∀ other ∈ files, ∀ place,
          tree.locate (directory.suffixes.metadataPath path) = .ok place →
            tree.locate other ≠ .ok place

theorem ListedInOrder.nodup (hnames : directory.ListedInOrder tree names) : names.Nodup := by
  refine hnames.ascending.imp ?_
  intro a b hlt heq
  subst heq
  exact List.lt_irrefl _ hlt

theorem interfaces_of_loaded {fragments : List Fragment}
    (hnames : directory.ListedInOrder tree names)
    (hloaded : (loadDirectory tree directory).outcome = .ok fragments) :
    fragments.map Fragment.interface =
      (names.map (joinPath directory.path)).map directory.suffixes.interface? := by
  rw [outcome_loadDirectory_of_listedInOrder hnames, mapM_eq_ok_iff] at hloaded
  rw [List.map_map]
  refine (map_eq_map_of_forall₂ ?_ hloaded).symm
  intro name fragment hread
  exact (loadFile_eq_ok_iff.mp hread).interface_eq.symm

theorem exists_pairedBy (hnamed : tree.WellNamed)
    (hmetadata : directory.suffixes.metadata ≠ "")
    (hslash : '/' ∉ directory.suffixes.metadata.toList)
    (hdirectory : tree.NamesDirectory directory.path location)
    (hlists : directory.Lists tree name) :
    ∃ base, name = base ++ directory.suffixes.errors ∧ IsFileName name ∧
      directory.PairedBy tree location (joinPath directory.path name) base := by
  have hholds := (lists_iff_holdsErrorsFile hnamed hdirectory).mp hlists
  obtain ⟨content, refusal, hentry⟩ := hholds.isFile
  obtain ⟨base, rfl⟩ := hholds.suffix
  have hpresent : tree.entry? (location ++ [base ++ directory.suffixes.errors]) ≠ none := by
    simp [hentry]
  have hname := hnamed.isFileName hpresent
  exact ⟨base, rfl, hname, pairedBy_of_isFileName hdirectory hmetadata hslash hname⟩

/-- What holds of errors files with different bases holds of any two that are listed. -/
theorem pairwise_of_paired {r : String → String → Prop}
    (hnames : directory.ListedInOrder tree names)
    (hpaired : ∀ name ∈ names, ∃ base, name = base ++ directory.suffixes.errors ∧
      IsFileName name ∧
        directory.PairedBy tree location (joinPath directory.path name) base)
    (hapart : ∀ {path other base otherBase : String},
      directory.PairedBy tree location path base →
        directory.PairedBy tree location other otherBase →
        base ≠ otherBase → r path other) :
    (names.map (joinPath directory.path)).Pairwise r := by
  rw [List.pairwise_map]
  refine hnames.nodup.imp_of_mem ?_
  intro name other hname hother hne
  obtain ⟨base, rfl, -, hpair⟩ := hpaired name hname
  obtain ⟨otherBase, rfl, -, hotherPair⟩ := hpaired other hother
  apply hapart hpair hotherPair
  intro hbase
  exact hne (by rw [hbase])

end DefinitionDirectory

/-- In a directory whose entries have names that paths can spell, errors files and
metadata files are paired one to one. -/
theorem pairsOneToOne_of_errorsFiles {directory : DefinitionDirectory} {tree : FileTree}
    {files : List String} (hnamed : tree.WellNamed)
    (hmetadata : directory.suffixes.metadata ≠ "")
    (hslash : '/' ∉ directory.suffixes.metadata.toList)
    (hfiles : directory.errorsFiles tree = .ok files) :
    directory.PairsOneToOne tree files := by
  obtain ⟨names, hnames, rfl⟩ := DefinitionDirectory.errorsFiles_eq_ok_iff.mp hfiles
  obtain ⟨location, hdirectory⟩ := hnames.listable
  have hpaired : ∀ name ∈ names, ∃ base, name = base ++ directory.suffixes.errors ∧
      IsFileName name ∧
        directory.PairedBy tree location (joinPath directory.path name) base :=
    fun name hmem => DefinitionDirectory.exists_pairedBy hnamed hmetadata hslash hdirectory
      ((hnames.mem_iff name).mp hmem)
  have hinterfaces :
      ((names.map (joinPath directory.path)).map directory.suffixes.interface?).Nodup := by
    rw [List.Nodup, List.pairwise_map]
    apply DefinitionDirectory.pairwise_of_paired hnames hpaired
    intro path other base otherBase hpair hotherPair hne heq
    exact hne (hpair.base_eq_of_interface?_eq hotherPair heq)
  constructor
  · refine ⟨location, hdirectory, ?_⟩
    intro path hpath
    obtain ⟨name, hname, rfl⟩ := List.mem_map.mp hpath
    obtain ⟨base, -, -, hpair⟩ := hpaired name hname
    exact ⟨base, hpair⟩
  · exact hinterfaces
  · rw [List.Nodup, List.pairwise_map]
    apply DefinitionDirectory.pairwise_of_paired hnames hpaired
    intro path other base otherBase hpair hotherPair hne heq
    exact hne (hpair.base_eq_of_metadataPath_eq hotherPair hslash heq)
  · apply DefinitionDirectory.pairwise_of_paired hnames hpaired
    intro path other base otherBase hpair hotherPair hne place content refusal hentry hplace
      hother
    exact hne (hpair.base_eq_of_locate_eq hotherPair hentry hplace hother)
  · intro fragments hloaded
    rw [DefinitionDirectory.interfaces_of_loaded hnames hloaded]
    exact ⟨hinterfaces, List.nodup_iff_count_le_one.mp hinterfaces none⟩
  · intro herrors hnoMetadata path hpath other hother place hplace hotherPlace
    obtain ⟨name, hname, rfl⟩ := List.mem_map.mp hpath
    obtain ⟨otherName, hotherName, rfl⟩ := List.mem_map.mp hother
    obtain ⟨base, -, -, hpair⟩ := hpaired name hname
    obtain ⟨otherBase, rfl, hisName, hotherPair⟩ := hpaired otherName hotherName
    rcases hpair.suffix_or_suffix_of_locate_eq hotherPair hisName hplace hotherPlace with
      hends | hends
    · exact herrors hends
    · exact hnoMetadata hends

/-- Three errors files: one whose name is only the suffix, one that has it twice, and one
with an interface of its own. -/
def suffixedTree : FileTree where
  entries :=
    [(["defs"], .directory),
      (["defs", ".err"], .file "- name: Bare\n".toUTF8),
      (["defs", ".err.err"], .file "- name: Twice\n".toUTF8),
      (["defs", ".err.meta"], .file "- name: Twice\n  level: ERR\n".toUTF8),
      (["defs", ".meta"], .file "- name: Bare\n  level: ERR\n".toUTF8),
      (["defs", "disk.err"], .file "- name: Full\n".toUTF8),
      (["defs", "disk.meta"], .file "- name: Full\n  level: ERR\n".toUTF8)]
  current := []
  distinct := by decide

def suffixedDirectory : DefinitionDirectory where
  path := "defs"
  suffixes := { errors := ".err", metadata := ".meta" }

theorem suffixedTree_errorsFiles : suffixedDirectory.errorsFiles suffixedTree =
    .ok ["defs/.err", "defs/.err.err", "defs/disk.err"] := by
  have hlisted : suffixedTree.listDirectory "defs" =
      .ok [".err", ".err.err", ".err.meta", ".meta", "disk.err", "disk.meta"] := by
    decide +kernel
  have hfiltered : [".err", ".err.err", ".err.meta", ".meta", "disk.err", "disk.meta"].filter
      (suffixedDirectory.isErrorsFile suffixedTree) = [".err", ".err.err", "disk.err"] := by
    decide +kernel
  have hsorted : [".err", ".err.err", "disk.err"].mergeSort nameLe =
      [".err", ".err.err", "disk.err"] :=
    List.mergeSort_of_pairwise (by decide +kernel)
  rw [DefinitionDirectory.errorsFiles, show suffixedDirectory.path = "defs" from rfl, hlisted]
  simp only [hfiltered, hsorted]
  decide +kernel

theorem suffixedTree_pairsOneToOne :
    suffixedTree.WellNamed ∧ suffixedDirectory.suffixes.metadata ≠ "" ∧
      '/' ∉ suffixedDirectory.suffixes.metadata.toList ∧
      suffixedDirectory.errorsFiles suffixedTree =
        .ok ["defs/.err", "defs/.err.err", "defs/disk.err"] ∧
      suffixedDirectory.PairsOneToOne suffixedTree
        ["defs/.err", "defs/.err.err", "defs/disk.err"] := by
  have hnamed : suffixedTree.WellNamed := by decide +kernel
  have hmetadata : suffixedDirectory.suffixes.metadata ≠ "" := by decide
  have hslash : '/' ∉ suffixedDirectory.suffixes.metadata.toList := by decide
  exact ⟨hnamed, hmetadata, hslash, suffixedTree_errorsFiles,
    pairsOneToOne_of_errorsFiles hnamed hmetadata hslash suffixedTree_errorsFiles⟩

end ErrorTaxonomy
