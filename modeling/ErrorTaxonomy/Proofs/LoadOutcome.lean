import ErrorTaxonomy.Proofs.CanonicalListing
import ErrorTaxonomy.Proofs.DecodedLists

/-!
# Outcomes of loading

A directory is loaded file by file in the order of the names, up to the first file that
cannot be loaded.  Of one file, the metadata file must be there, then both files must be
read, the errors file first, and then both texts must be decoded in the same order; the
first of these that fails says what is wrong.  So the outcome of loading is settled by
what stands in the directory, and what comes after a failure has no part in it.
-/

namespace ErrorTaxonomy

/-! ## Reading files -/

namespace FileTree

variable {tree : FileTree} {path text : String} {content : ByteArray}

def NamesFile (tree : FileTree) (path : String) : Prop :=
  ∃ location content refusal, tree.locate path = .ok location ∧
    tree.entry? location = some (.file content refusal)

/-- A path leads to a file that holds a text, in UTF-8, and gives it out. -/
def HoldsText (tree : FileTree) (path text : String) : Prop :=
  ∃ location, tree.locate path = .ok location ∧
    tree.entry? location = some (.file text.toUTF8 none)

/-- Why no text can be read at a path. -/
inductive Unreadable (tree : FileTree) (path : String) : SystemFault → Prop
  | unreachable {fault : SystemFault} :
      tree.locate path = .error fault → Unreadable tree path fault
  | absent {location : Location} :
      tree.locate path = .ok location → tree.entry? location = none →
        Unreadable tree path .notFound
  | closed {location : Location} {refusals : DirectoryRefusals} {fault : SystemFault} :
      tree.locate path = .ok location →
        tree.entry? location = some (.directory refusals) →
        refusals.opening = some fault → Unreadable tree path fault
  | directory {location : Location} {refusals : DirectoryRefusals} :
      tree.locate path = .ok location →
        tree.entry? location = some (.directory refusals) → refusals.opening = none →
        Unreadable tree path .isADirectory
  | refused {location : Location} {content : ByteArray} {fault : SystemFault} :
      tree.locate path = .ok location →
        tree.entry? location = some (.file content (some fault)) →
        Unreadable tree path fault
  | notText {location : Location} {content : ByteArray} :
      tree.locate path = .ok location →
        tree.entry? location = some (.file content none) →
        (∀ text : String, content ≠ text.toUTF8) → Unreadable tree path .invalidText

theorem isFile_iff : tree.isFile path = true ↔ tree.NamesFile path := by
  rw [isFile_eq, Option.isSome_iff_exists]
  simp only [reading?_eq_some_iff, found?_eq_some_iff, lookup_eq_ok_iff]
  constructor
  · intro hfile
    rcases hfile with ⟨-, content, refusal, ⟨location, hlocate, hentry⟩, -⟩
    exact ⟨location, content, refusal, hlocate, hentry⟩
  · intro hfile
    rcases hfile with ⟨location, content, refusal, hlocate, hentry⟩
    exact ⟨_, content, refusal, ⟨location, hlocate, hentry⟩, rfl⟩

theorem fromUTF8?_eq_some_iff : String.fromUTF8? content = some text ↔ content = text.toUTF8 := by
  unfold String.fromUTF8?
  split
  · rw [Option.some.injEq, ← String.toByteArray_inj]
    rfl
  · rename_i hinvalid
    refine iff_of_false (by simp) ?_
    intro heq
    subst heq
    exact hinvalid text.isValidUTF8

theorem lookup_eq_error_iff {fault : SystemFault} :
    tree.lookup path = .error fault ↔
      tree.locate path = .error fault ∨
        ∃ location, tree.locate path = .ok location ∧ tree.entry? location = none ∧
          fault = .notFound := by
  unfold lookup
  rw [bind_eq_error_iff]
  refine or_congr_right (exists_congr fun location => and_congr_right fun _ => ?_)
  cases tree.entry? location with
  | none => simp [throw, throwThe, MonadExceptOf.throw, eq_comm]
  | some entry => simp [pure, Except.pure]

theorem decodeText_eq_ok_iff : decodeText content = .ok text ↔ content = text.toUTF8 := by
  rw [← fromUTF8?_eq_some_iff]
  unfold decodeText
  cases String.fromUTF8? content <;> simp

theorem decodeText_eq_error_iff {fault : SystemFault} :
    decodeText content = .error fault ↔
      (∀ text : String, content ≠ text.toUTF8) ∧ fault = .invalidText := by
  simp only [ne_eq, ← fromUTF8?_eq_some_iff, ← Option.eq_none_iff_forall_ne_some]
  unfold decodeText
  cases String.fromUTF8? content <;> simp [eq_comm]

theorem readText_eq_ok_iff : tree.readText path = .ok text ↔ tree.HoldsText path text := by
  unfold readText
  rw [bind_eq_ok_iff]
  simp only [bind_eq_ok_iff, decodeText_eq_ok_iff, lookup_eq_ok_iff]
  constructor
  · intro hread
    rcases hread with ⟨entry, ⟨location, hlocate, hentry⟩, content, hcontent, rfl⟩
    cases entry with
    | directory refusals =>
        obtain ⟨-, hnever⟩ := unlessRefused_eq_ok_iff.mp hcontent
        cases hnever
    | file bytes refusal =>
        obtain ⟨rfl, hbytes⟩ := unlessRefused_eq_ok_iff.mp hcontent
        obtain rfl := Except.ok.inj hbytes
        exact ⟨location, hlocate, hentry⟩
  · intro hholds
    rcases hholds with ⟨location, hlocate, hentry⟩
    exact ⟨_, ⟨location, hlocate, hentry⟩, _, rfl, rfl⟩

theorem readText_eq_error_iff {fault : SystemFault} :
    tree.readText path = .error fault ↔ tree.Unreadable path fault := by
  unfold readText
  rw [bind_eq_error_iff]
  simp only [bind_eq_error_iff, decodeText_eq_error_iff, lookup_eq_error_iff,
    lookup_eq_ok_iff]
  constructor
  · intro hread
    rcases hread with (hlocate | ⟨location, hlocate, hentry, rfl⟩) |
      ⟨entry, ⟨location, hlocate, hentry⟩, hrest⟩
    · exact .unreachable hlocate
    · exact .absent hlocate hentry
    · cases entry with
      | directory refusals =>
          rcases hrest with hrefused | ⟨content, hnever, -⟩
          · rcases unlessRefused_eq_error_iff.mp hrefused with hopening | ⟨hopened, hkind⟩
            · exact .closed hlocate hentry hopening
            · obtain rfl := Except.error.inj hkind
              exact .directory hlocate hentry hopened
          · cases (unlessRefused_eq_ok_iff.mp hnever).2
      | file content refusal =>
          rcases hrest with hrefused | ⟨bytes, hbytes, hnotText, rfl⟩
          · rcases unlessRefused_eq_error_iff.mp hrefused with rfl | ⟨-, hnever⟩
            · exact .refused hlocate hentry
            · cases hnever
          · obtain ⟨rfl, hread⟩ := unlessRefused_eq_ok_iff.mp hbytes
            obtain rfl := Except.ok.inj hread
            exact .notText hlocate hentry hnotText
  · intro hfault
    cases hfault with
    | unreachable hlocate => exact .inl (.inl hlocate)
    | absent hlocate hentry => exact .inl (.inr ⟨_, hlocate, hentry, rfl⟩)
    | closed hlocate hentry hopening =>
        refine .inr ⟨_, ⟨_, hlocate, hentry⟩, .inl ?_⟩
        exact unlessRefused_eq_error_iff.mpr (.inl hopening)
    | directory hlocate hentry hopened =>
        refine .inr ⟨_, ⟨_, hlocate, hentry⟩, .inl ?_⟩
        exact unlessRefused_eq_error_iff.mpr (.inr ⟨hopened, rfl⟩)
    | refused hlocate hentry => exact .inr ⟨_, ⟨_, hlocate, hentry⟩, .inl rfl⟩
    | notText hlocate hentry hnotText =>
        exact .inr ⟨_, ⟨_, hlocate, hentry⟩, .inr ⟨_, rfl, hnotText, rfl⟩⟩

end FileTree

/-! ## One pair of files -/

section Pair

variable {tree : FileTree} {suffixes : Suffixes} {path : String}

/-- A fragment holds the lists that the texts of an errors file and of its metadata file
define, and the interface that the errors file is named for. -/
structure LoadsAs (tree : FileTree) (suffixes : Suffixes) (path : String)
    (fragment : Fragment) : Prop where
  errors : ∃ text, tree.HoldsText path text ∧
    Defines readErrorDeclaration text fragment.errors
  metadata : ∃ text, tree.HoldsText (suffixes.metadataPath path) text ∧
    Defines readMetadataRecord text fragment.metadata
  interface_eq : fragment.interface = suffixes.interface? path

def LoadError.undecodable (path : String) (failure : Yaml.Failure) : LoadError :=
  .invalidText path failure.message (failure.position.map Prod.fst)
    (failure.position.map Prod.snd)

/-- What is wrong with an errors file and its metadata file, where each failure comes
after the ones above it have been ruled out. -/
inductive FailsToLoad (tree : FileTree) (suffixes : Suffixes) (path : String) :
    LoadError → Prop
  | noMetadata :
      ¬ tree.NamesFile (suffixes.metadataPath path) →
        FailsToLoad tree suffixes path (.missingMetadata (suffixes.metadataPath path))
  | errorsUnreadable {fault : SystemFault} :
      tree.NamesFile (suffixes.metadataPath path) → tree.Unreadable path fault →
        FailsToLoad tree suffixes path (.unreadable path fault)
  | metadataUnreadable {errorsText : String} {fault : SystemFault} :
      tree.NamesFile (suffixes.metadataPath path) → tree.HoldsText path errorsText →
        tree.Unreadable (suffixes.metadataPath path) fault →
        FailsToLoad tree suffixes path (.unreadable (suffixes.metadataPath path) fault)
  | errorsInvalid {errorsText metadataText : String} {failure : Yaml.Failure} :
      tree.HoldsText path errorsText →
        tree.HoldsText (suffixes.metadataPath path) metadataText →
        parseErrors errorsText = .error failure →
        FailsToLoad tree suffixes path (.undecodable path failure)
  | metadataInvalid {errorsText metadataText : String} {errors : List ErrorDeclaration}
      {failure : Yaml.Failure} :
      tree.HoldsText path errorsText →
        tree.HoldsText (suffixes.metadataPath path) metadataText →
        Defines readErrorDeclaration errorsText errors →
        parseMetadata metadataText = .error failure →
        FailsToLoad tree suffixes path (.undecodable (suffixes.metadataPath path) failure)

theorem readDefinitionFile_eq_ok_iff {text : String} :
    readDefinitionFile tree path = .ok text ↔ tree.HoldsText path text := by
  rw [readDefinitionFile, mapError_eq_ok_iff, FileTree.readText_eq_ok_iff]

theorem readDefinitionFile_eq_error_iff {error : LoadError} :
    readDefinitionFile tree path = .error error ↔
      ∃ fault, tree.Unreadable path fault ∧ error = .unreadable path fault := by
  rw [readDefinitionFile, mapError_eq_error_iff]
  simp only [FileTree.readText_eq_error_iff]

theorem FileTree.HoldsText.namesFile {text : String} (hholds : tree.HoldsText path text) :
    tree.NamesFile path := by
  obtain ⟨location, hlocate, hentry⟩ := hholds
  exact ⟨location, _, none, hlocate, hentry⟩

theorem readPair_of_isFile (hfile : tree.NamesFile (suffixes.metadataPath path)) :
    readPair tree suffixes path = (do
      let errorsText ← readDefinitionFile tree path
      let metadataText ← readDefinitionFile tree (suffixes.metadataPath path)
      pure (errorsText, metadataText)) := by
  rw [readPair, if_pos (FileTree.isFile_iff.mpr hfile)]

theorem readPair_of_not_isFile (hfile : ¬ tree.NamesFile (suffixes.metadataPath path)) :
    readPair tree suffixes path = .error (.missingMetadata (suffixes.metadataPath path)) := by
  rw [← FileTree.isFile_iff] at hfile
  rw [readPair, if_neg hfile]

theorem readPair_eq_ok_iff {texts : String × String} :
    readPair tree suffixes path = .ok texts ↔
      tree.HoldsText path texts.1 ∧ tree.HoldsText (suffixes.metadataPath path) texts.2 := by
  constructor
  · intro hread
    by_cases hfile : tree.NamesFile (suffixes.metadataPath path)
    · rw [readPair_of_isFile hfile] at hread
      obtain ⟨errorsText, herrors, hread⟩ := bind_eq_ok_iff.mp hread
      obtain ⟨metadataText, hmetadata, hread⟩ := bind_eq_ok_iff.mp hread
      obtain rfl := Except.ok.inj hread
      exact ⟨readDefinitionFile_eq_ok_iff.mp herrors, readDefinitionFile_eq_ok_iff.mp hmetadata⟩
    · rw [readPair_of_not_isFile hfile] at hread
      cases hread
  · intro hholds
    rw [readPair_of_isFile hholds.2.namesFile, readDefinitionFile_eq_ok_iff.mpr hholds.1,
      readDefinitionFile_eq_ok_iff.mpr hholds.2]
    rfl

theorem readPair_eq_error {error : LoadError}
    (hread : readPair tree suffixes path = .error error) :
    FailsToLoad tree suffixes path error := by
  by_cases hfile : tree.NamesFile (suffixes.metadataPath path)
  · rw [readPair_of_isFile hfile] at hread
    rcases bind_eq_error_iff.mp hread with herror | ⟨errorsText, herrorsText, hread⟩
    · obtain ⟨fault, hfault, rfl⟩ := readDefinitionFile_eq_error_iff.mp herror
      exact .errorsUnreadable hfile hfault
    · rw [readDefinitionFile_eq_ok_iff] at herrorsText
      rcases bind_eq_error_iff.mp hread with herror | ⟨metadataText, _, hnever⟩
      · obtain ⟨fault, hfault, rfl⟩ := readDefinitionFile_eq_error_iff.mp herror
        exact .metadataUnreadable hfile herrorsText hfault
      · cases hnever
  · rw [readPair_of_not_isFile hfile] at hread
    obtain rfl := Except.error.inj hread
    exact .noMetadata hfile

theorem outcome_decodeNoted {α : Type} (content : String)
    (decoded : Except Yaml.Failure (List α)) :
    (decodeNoted content path decoded).outcome = decodeDefinitionFile path decoded := by
  rw [decodeNoted, Traced.outcome_bind, Traced.outcome_ofExcept]
  cases decodeDefinitionFile path decoded <;> rfl

theorem outcome_decodePair (texts : String × String) :
    (decodePair suffixes path texts).outcome = (do
      let errors ← decodeDefinitionFile path (parseErrors texts.1)
      let metadata ← decodeDefinitionFile (suffixes.metadataPath path) (parseMetadata texts.2)
      pure { interface := suffixes.interface? path, errors, metadata }) := by
  simp only [decodePair, Traced.outcome_bind, outcome_decodeNoted]
  rfl

theorem outcome_loadFile :
    (loadFile tree suffixes path).outcome =
      (readPair tree suffixes path >>= fun texts =>
        (decodePair suffixes path texts).outcome) := by
  rw [loadFile, Traced.outcome_bind, Traced.outcome_ofExcept]
  refine congrArg _ (funext fun texts => ?_)
  rw [Traced.outcome_bind]
  cases (decodePair suffixes path texts).outcome <;> rfl

theorem loadFile_eq_ok_iff {fragment : Fragment} :
    (loadFile tree suffixes path).outcome = .ok fragment ↔
      LoadsAs tree suffixes path fragment := by
  rw [outcome_loadFile, bind_eq_ok_iff]
  simp only [readPair_eq_ok_iff, outcome_decodePair]
  constructor
  · intro hloaded
    rcases hloaded with ⟨⟨errorsText, metadataText⟩, ⟨herrorsText, hmetadataText⟩, hloaded⟩
    obtain ⟨errors, herrors, hloaded⟩ := bind_eq_ok_iff.mp hloaded
    obtain ⟨metadata, hmetadata, hloaded⟩ := bind_eq_ok_iff.mp hloaded
    obtain rfl := Except.ok.inj hloaded
    constructor
    · exact ⟨errorsText, herrorsText,
        parseDefinitions_eq_ok_iff.mp (mapError_eq_ok_iff.mp herrors)⟩
    · exact ⟨metadataText, hmetadataText,
        parseDefinitions_eq_ok_iff.mp (mapError_eq_ok_iff.mp hmetadata)⟩
    · rfl
  · intro hloads
    obtain ⟨errorsText, herrorsText, herrors⟩ := hloads.errors
    obtain ⟨metadataText, hmetadataText, hmetadata⟩ := hloads.metadata
    refine ⟨(errorsText, metadataText), ⟨herrorsText, hmetadataText⟩, ?_⟩
    rw [← parseDefinitions_eq_ok_iff] at herrors hmetadata
    refine bind_eq_ok_iff.mpr ⟨_, mapError_eq_ok_iff.mpr herrors, ?_⟩
    refine bind_eq_ok_iff.mpr ⟨_, mapError_eq_ok_iff.mpr hmetadata, ?_⟩
    change Except.ok (Fragment.mk (suffixes.interface? path) _ _) = _
    rw [← hloads.interface_eq]

theorem decodePair_eq_error {texts : String × String} {error : LoadError}
    (herrorsText : tree.HoldsText path texts.1)
    (hmetadataText : tree.HoldsText (suffixes.metadataPath path) texts.2)
    (hdecoded : (decodePair suffixes path texts).outcome = .error error) :
    FailsToLoad tree suffixes path error := by
  rw [outcome_decodePair] at hdecoded
  rcases bind_eq_error_iff.mp hdecoded with herror | ⟨errors, herrors, hdecoded⟩
  · obtain ⟨failure, hfailure, rfl⟩ := mapError_eq_error_iff.mp herror
    exact .errorsInvalid herrorsText hmetadataText hfailure
  · have herrors := parseDefinitions_eq_ok_iff.mp (mapError_eq_ok_iff.mp herrors)
    rcases bind_eq_error_iff.mp hdecoded with herror | ⟨metadata, _, hnever⟩
    · obtain ⟨failure, hfailure, rfl⟩ := mapError_eq_error_iff.mp herror
      exact .metadataInvalid herrorsText hmetadataText herrors hfailure
    · cases hnever

/-- A failure of the reading is a failure of the whole. -/
theorem loadFile_of_readPair_eq_error {error : LoadError}
    (hread : readPair tree suffixes path = .error error) :
    (loadFile tree suffixes path).outcome = .error error := by
  rw [outcome_loadFile, hread]
  rfl

theorem loadFile_of_decodePair_eq_error (texts : String × String) {error : LoadError}
    (herrorsText : tree.HoldsText path texts.1)
    (hmetadataText : tree.HoldsText (suffixes.metadataPath path) texts.2)
    (hdecoded : (decodePair suffixes path texts).outcome = .error error) :
    (loadFile tree suffixes path).outcome = .error error := by
  rw [outcome_loadFile, readPair_eq_ok_iff.mpr ⟨herrorsText, hmetadataText⟩]
  exact hdecoded

theorem FailsToLoad.outcome_eq {error : LoadError}
    (hfails : FailsToLoad tree suffixes path error) :
    (loadFile tree suffixes path).outcome = .error error := by
  cases hfails with
  | noMetadata hmissing =>
      exact loadFile_of_readPair_eq_error (readPair_of_not_isFile hmissing)
  | errorsUnreadable hfile hfault =>
      apply loadFile_of_readPair_eq_error
      rw [readPair_of_isFile hfile, readDefinitionFile_eq_error_iff.mpr ⟨_, hfault, rfl⟩]
      rfl
  | metadataUnreadable hfile herrorsText hfault =>
      apply loadFile_of_readPair_eq_error
      rw [readPair_of_isFile hfile, readDefinitionFile_eq_ok_iff.mpr herrorsText,
        readDefinitionFile_eq_error_iff.mpr ⟨_, hfault, rfl⟩]
      rfl
  | @errorsInvalid errorsText metadataText failure herrorsText hmetadataText hfailure =>
      apply loadFile_of_decodePair_eq_error (errorsText, metadataText) herrorsText hmetadataText
      rw [outcome_decodePair, hfailure]
      rfl
  | @metadataInvalid errorsText metadataText errors failure herrorsText hmetadataText herrors
      hfailure =>
      apply loadFile_of_decodePair_eq_error (errorsText, metadataText) herrorsText hmetadataText
      have hparsed : parseErrors errorsText = .ok errors :=
        parseDefinitions_eq_ok_iff.mpr herrors
      rw [outcome_decodePair, hparsed, hfailure]
      rfl

theorem loadFile_eq_error_iff {error : LoadError} :
    (loadFile tree suffixes path).outcome = .error error ↔
      FailsToLoad tree suffixes path error := by
  constructor
  · intro hfailed
    rw [outcome_loadFile] at hfailed
    rcases bind_eq_error_iff.mp hfailed with hread | ⟨texts, htexts, hdecoded⟩
    · exact readPair_eq_error hread
    · obtain ⟨herrorsText, hmetadataText⟩ := readPair_eq_ok_iff.mp htexts
      exact decodePair_eq_error herrorsText hmetadataText hdecoded
  · intro hfails
    exact hfails.outcome_eq

end Pair

/-! ## Whole directories -/

section Directory

variable {tree : FileTree} {directory : DefinitionDirectory} {suffixes : Suffixes}

theorem outcome_loadFiles (paths : List String) :
    (loadFiles tree suffixes paths).outcome =
      paths.mapM fun path => (loadFile tree suffixes path).outcome := by
  induction paths with
  | nil => rfl
  | cons path paths ih =>
      rw [loadFiles, Traced.outcome_bind, List.mapM_cons]
      simp only [Traced.outcome_bind, ih]
      rfl

theorem outcome_emptyDirectoryRemarks (files : List String) :
    (emptyDirectoryRemarks directory files).outcome = .ok () := by
  unfold emptyDirectoryRemarks
  split <;> rfl

theorem outcome_loadDirectory :
    (loadDirectory tree directory).outcome =
      (directory.errorsFiles tree >>= fun files =>
        files.mapM fun path => (loadFile tree directory.suffixes path).outcome) := by
  rw [loadDirectory, Traced.outcome_bind, Traced.outcome_note]
  change (Traced.ofExcept (directory.errorsFiles tree) >>= _).outcome = _
  rw [Traced.outcome_bind, Traced.outcome_ofExcept]
  simp only [Traced.outcome_bind, outcome_emptyDirectoryRemarks, outcome_loadFiles]
  rfl

theorem outcome_loadDirectory_of_listedInOrder {names : List String}
    (hnames : directory.ListedInOrder tree names) :
    (loadDirectory tree directory).outcome =
      names.mapM fun name =>
        (loadFile tree directory.suffixes (joinPath directory.path name)).outcome := by
  rw [outcome_loadDirectory, DefinitionDirectory.errorsFiles_eq_ok_iff.mpr ⟨names, hnames, rfl⟩]
  change (names.map (joinPath directory.path)).mapM _ = _
  rw [List.mapM_map, Function.comp_def]

/-- What loading a directory comes to.  It cannot be listed; or some file cannot be loaded
while all files with earlier names can; or each of its errors files has its fragment, in
the order of the names. -/
inductive LoadOutcome (directory : DefinitionDirectory) (tree : FileTree) :
    Except LoadError (List Fragment) → Prop
  | unlistable {fault : SystemFault} :
      tree.Unlistable directory.path fault →
        LoadOutcome directory tree (.error (.unreadable directory.path fault))
  | failed {before after : List String} {name : String} {error : LoadError} :
      directory.ListedInOrder tree (before ++ name :: after) →
        (∀ earlier ∈ before, ∃ fragment,
          LoadsAs tree directory.suffixes (joinPath directory.path earlier) fragment) →
        FailsToLoad tree directory.suffixes (joinPath directory.path name) error →
        LoadOutcome directory tree (.error error)
  | loaded {names : List String} {fragments : List Fragment} :
      directory.ListedInOrder tree names →
        List.Forall₂
          (fun name => LoadsAs tree directory.suffixes (joinPath directory.path name))
          names fragments →
        LoadOutcome directory tree (.ok fragments)

theorem outcome_loadDirectory_eq_iff {outcome : Except LoadError (List Fragment)} :
    (loadDirectory tree directory).outcome = outcome ↔ LoadOutcome directory tree outcome := by
  constructor
  · intro houtcome
    cases hfiles : directory.errorsFiles tree with
    | error error =>
        obtain ⟨fault, hfault, rfl⟩ := DefinitionDirectory.errorsFiles_eq_error_iff.mp hfiles
        rw [outcome_loadDirectory, hfiles] at houtcome
        subst houtcome
        exact .unlistable hfault
    | ok files =>
        obtain ⟨names, hnames, -⟩ := DefinitionDirectory.errorsFiles_eq_ok_iff.mp hfiles
        rw [outcome_loadDirectory_of_listedInOrder hnames] at houtcome
        cases outcome with
        | error error =>
            obtain ⟨before, name, after, rfl, hbefore, hname⟩ := mapM_eq_error_iff.mp houtcome
            simp only [loadFile_eq_ok_iff] at hbefore
            exact .failed hnames hbefore (loadFile_eq_error_iff.mp hname)
        | ok fragments =>
            have hfragments := mapM_eq_ok_iff.mp houtcome
            simp only [loadFile_eq_ok_iff] at hfragments
            exact .loaded hnames hfragments
  · intro houtcome
    cases houtcome with
    | @unlistable fault hfault =>
        rw [outcome_loadDirectory,
          DefinitionDirectory.errorsFiles_eq_error_iff.mpr ⟨fault, hfault, rfl⟩]
        rfl
    | failed hnames hbefore hname =>
        simp only [← loadFile_eq_ok_iff] at hbefore
        rw [outcome_loadDirectory_of_listedInOrder hnames, mapM_eq_error_iff]
        exact ⟨_, _, _, rfl, hbefore, loadFile_eq_error_iff.mpr hname⟩
    | loaded hnames hfragments =>
        rw [outcome_loadDirectory_of_listedInOrder hnames, mapM_eq_ok_iff]
        exact hfragments.imp fun _ _ => loadFile_eq_ok_iff.mpr

end Directory

/-- An errors file that is not given out decides, whatever its metadata says. -/
example :
    (loadDirectory
      { entries :=
          [(["io.metadata.yaml"], .file "- name:".toUTF8),
            (["io.errors.yaml"], .file "- name: Io\n".toUTF8 (some .permissionDenied))]
        current := []
        distinct := by decide }
      { path := ".", suffixes := {} }).outcome =
        .error (.unreadable "./io.errors.yaml" .permissionDenied) := by
  decide +kernel

end ErrorTaxonomy
