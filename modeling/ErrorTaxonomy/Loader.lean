import ErrorTaxonomy.Configuration
import ErrorTaxonomy.DefinitionText
import ErrorTaxonomy.Files.FileTree
import ErrorTaxonomy.Traced

/-!
# Loading a definition directory

An errors file is a file of the directory whose name ends in the errors suffix.
What comes before the suffix names the interface; the metadata file of the
interface stands next to it.  Files are read in the order of their names, so the
order in which a directory is enumerated does not matter.
-/

namespace ErrorTaxonomy

/-- A directory of definition files, and how its files are told apart. -/
structure DefinitionDirectory where
  path : String
  suffixes : Suffixes
  deriving DecidableEq

/-- The text in front of a suffix, if it is one. -/
def beforeSuffix? (suffix name : String) : Option String :=
  if suffix.toList.isSuffixOf name.toList then
    some (String.ofList (name.toList.take (name.length - suffix.length)))
  else none

/-- The order of names by their characters, which is that of their bytes. -/
def nameLe (a b : String) : Bool :=
  a ≤ b

namespace Suffixes

/-- The interface of an errors file; a name that is only the suffix has none. -/
def interface? (suffixes : Suffixes) (path : String) : Option String := do
  let name ← fileName? path
  let interface ← beforeSuffix? suffixes.errors name
  if interface = "" then none else some interface

def metadataPath (suffixes : Suffixes) (path : String) : String :=
  withFileName path ((suffixes.interface? path).getD "" ++ suffixes.metadata)

end Suffixes

namespace DefinitionDirectory

variable (directory : DefinitionDirectory) (tree : FileTree)

def isErrorsFile (name : String) : Bool :=
  (beforeSuffix? directory.suffixes.errors name).isSome &&
    tree.isFile (joinPath directory.path name)

/-- The errors files of the directory, in the order of their names. -/
def errorsFiles : Except LoadError (List String) :=
  match tree.listDirectory directory.path with
  | .error fault => .error (.unreadable directory.path fault)
  | .ok names =>
      .ok
        (((names.filter (directory.isErrorsFile tree)).mergeSort nameLe).map
          (joinPath directory.path))

end DefinitionDirectory

def readDefinitionFile (tree : FileTree) (path : String) : Except LoadError String :=
  (tree.readText path).mapError (.unreadable path)

def decodeDefinitionFile {α : Type} (path : String)
    (decoded : Except Yaml.Failure (List α)) : Except LoadError (List α) :=
  decoded.mapError fun failure =>
    .invalidText path failure.message (failure.position.map Prod.fst)
      (failure.position.map Prod.snd)

/-- The texts of an errors file and of its metadata file, which has to be there.  Both
are read before either is decoded. -/
def readPair (tree : FileTree) (suffixes : Suffixes) (path : String) :
    Except LoadError (String × String) :=
  let metadataPath := suffixes.metadataPath path
  if tree.isFile metadataPath then do
    let errorsText ← readDefinitionFile tree path
    let metadataText ← readDefinitionFile tree metadataPath
    pure (errorsText, metadataText)
  else .error (.missingMetadata metadataPath)

/-- Decodes the text of a definition file and notes how much it declares. -/
def decodeNoted {α : Type} (content path : String)
    (decoded : Except Yaml.Failure (List α)) : Traced LoadError (List α) := do
  let declarations ← Traced.ofExcept (decodeDefinitionFile path decoded)
  Traced.note
    { level := .trace
      component := "errtax_loader::yaml"
      message := "Decoded " ++ content ++ " declarations"
      details := [("path", path), ("count", toString declarations.length)] }
  pure declarations

/-- The fragment of the two texts of an errors file and its metadata file. -/
def decodePair (suffixes : Suffixes) (path : String) (texts : String × String) :
    Traced LoadError Fragment := do
  let errors ← decodeNoted "error" path (parseErrors texts.1)
  let metadata ← decodeNoted "metadata" (suffixes.metadataPath path) (parseMetadata texts.2)
  pure { interface := suffixes.interface? path, errors, metadata }

/-- Reads the fragment of an errors file and notes it in the journal. -/
def loadFile (tree : FileTree) (suffixes : Suffixes) (path : String) :
    Traced LoadError Fragment := do
  let texts ← Traced.ofExcept (readPair tree suffixes path)
  let fragment ← decodePair suffixes path texts
  Traced.note
    { level := .debug
      component := "errtax_loader::directory"
      message := "Loaded fragment"
      details :=
        [("interface", displayedOption fragment.interface),
         ("errors", toString fragment.errors.length),
         ("metadata", toString fragment.metadata.length)] }
  pure fragment

/-- Loads files one after the other, up to the first that fails. -/
def loadFiles (tree : FileTree) (suffixes : Suffixes) :
    List String → Traced LoadError (List Fragment)
  | [] => pure []
  | path :: paths => do
      let fragment ← loadFile tree suffixes path
      let fragments ← loadFiles tree suffixes paths
      pure (fragment :: fragments)

/-- The journal's remark on a directory without errors files. -/
def emptyDirectoryRemarks (directory : DefinitionDirectory) (files : List String) :
    Traced LoadError Unit :=
  if files = [] then
    Traced.note
      { level := .warn
        component := "errtax_loader::directory"
        message := "No errors files found"
        details := [("dir", directory.path), ("suffix", directory.suffixes.errors)] }
  else pure ()

/-- The fragments of a directory, one for each of its errors files. -/
def loadDirectory (tree : FileTree) (directory : DefinitionDirectory) :
    Traced LoadError (List Fragment) := do
  Traced.note
    { level := .info
      component := "errtax_loader::directory"
      message := "Loading definition fragments"
      details := [("dir", directory.path)] }
  let files ← Traced.ofExcept (directory.errorsFiles tree)
  emptyDirectoryRemarks directory files
  loadFiles tree directory.suffixes files

end ErrorTaxonomy
