import ErrorTaxonomy.Program
import Std.Time.Format

/-!
# The command line

The program as it is run.  What it needs to see of the file system is collected
in a tree first: the candidates for the configuration, the files of the input
directory that its suffixes single out, and the directories on the way to the
output.  The run is computed on that tree; only the output is then written for
real.
-/

namespace ErrorTaxonomy

def locationsOnWay (tree : FileTree) (path : String) : List Location :=
  (FileTree.pathNames path).foldl
    (fun locations name =>
      locations ++
        [FileTree.follow (locations.getLast?.getD (tree.walkStart path)) name])
    []

def absolutePath (location : Location) : String :=
  "/" ++ String.intercalate "/" location

def faultOf : IO.Error → SystemFault
  | .permissionDenied .. => .permissionDenied
  | error => .other (toString error)

/-- The file at a location, with its bytes if the system gives them out. -/
def observeFile (location : Location) : IO FileEntry := do
  try
    pure (.file (← IO.FS.readBinFile ((← IO.currentDir) / absolutePath location)))
  catch error => pure (.file ByteArray.empty (faultOf error))

/-- The names in a directory, unless the system does not enumerate them. -/
def observeNames (path : String) : IO (Except SystemFault (List String)) := do
  try
    let entries ← ((← IO.currentDir) / path).readDir
    pure (.ok (entries.toList.map fun entry => entry.fileName))
  catch error => pure (.error (faultOf error))

/-- Adds what stands at a location; files are read only on demand. -/
def observeLocation (reading : Bool) (tree : FileTree) (location : Location) :
    IO FileTree := do
  let place := (← IO.currentDir) / absolutePath location
  if ← place.pathExists then
    match (← place.metadata).type with
    | .dir => pure (tree.setEntry location .directory)
    | .file =>
        let entry ← if reading then observeFile location else pure (.file ByteArray.empty)
        pure (tree.setEntry location entry)
    | _ => pure tree
  else pure tree

def observePath (reading : Bool) (tree : FileTree) (path : String) : IO FileTree :=
  (locationsOnWay tree path).foldlM (observeLocation reading) tree

def observePair (suffixes : Suffixes) (tree : FileTree) (path : String) : IO FileTree := do
  let tree ← observePath true tree path
  observePath true tree (suffixes.metadataPath path)

/-- A tree in which the directory at a location cannot be opened. -/
def withClosed (tree : FileTree) (location : Location) (fault : SystemFault) : FileTree :=
  let refusals : DirectoryRefusals := { opening := some fault }
  if location = [] then { tree with root := refusals }
  else tree.setEntry location (.directory refusals)

def observeDefinitions (directory : DefinitionDirectory) (tree : FileTree) :
    IO FileTree := do
  let tree ← observePath false tree directory.path
  match tree.locate directory.path, tree.lookup directory.path with
  | .ok location, .ok (.directory _) =>
      match ← observeNames directory.path with
      | .error fault => pure (withClosed tree location fault)
      | .ok names =>
          let candidates := names.filter fun name =>
            (beforeSuffix? directory.suffixes.errors name).isSome
          (candidates.map (joinPath directory.path)).foldlM
            (observePair directory.suffixes) tree
  | _, _ => pure tree

def observeHost (arguments : Arguments) : IO Host := do
  let current := FileTree.withCurrent (FileTree.pathNames (toString (← IO.currentDir)))
  let userConfiguration :=
    userConfigurationPath (← IO.getEnv "XDG_CONFIG_HOME") (← IO.getEnv "HOME")
  let candidates :=
    arguments.config.toList ++ [localConfiguration] ++ userConfiguration.toList
  let tree ← candidates.foldlM (observePath true) current
  let host : Host := { tree, userConfiguration }
  match (findConfiguration host arguments.config).outcome with
  | .error _ => pure host
  | .ok configuration =>
      let tree ←
        observeDefinitions { path := arguments.input, suffixes := configuration.suffixes }
          tree
      pure { host with tree := ← observePath false tree arguments.output }

def replaceFile (path text : String) : IO Unit := do
  let current ← IO.currentDir
  let temporary := current / outputDirectory path / (".tmp" ++ toString (← IO.monoNanosNow))
  try
    IO.FS.withFile temporary .writeNew fun handle => handle.write text.toUTF8
    IO.FS.rename temporary (current / path)
  catch error =>
    if ← temporary.pathExists then IO.FS.removeFile temporary
    throw error

/-- Writes the output, unless the tree already shows that it cannot be written. -/
def commitOutput (host : Host) (path text : String) : IO (Except SystemFault Unit) :=
  match (writeOutput host path text).1 with
  | .error fault => pure (.error fault)
  | .ok _ =>
      try
        replaceFile path text
        pure (.ok ())
      catch error => pure (.error (faultOf error))

/-- Carries out what a run has prepared. -/
def performRun (arguments : Arguments) (host : Host)
    (prepared : Traced RunError (Option Rendering)) : IO (Traced RunError Unit) := do
  let written ← match prepared.outcome with
    | .ok (some rendering) => commitOutput host arguments.output rendering.text
    | _ => pure (.ok ())
  pure (completeRun arguments prepared fun _ => written)

def currentTime : IO String := do
  let now ← Std.Time.Timestamp.now
  pure
    ((Std.Time.DateTime.ofTimestamp now Std.Time.TimeZone.ZoneRules.UTC).format
      "uuuu-MM-dd'T'HH:mm:ss'Z'")

def Printout.deliver (printout : Printout) : IO UInt32 := do
  IO.print printout.output
  IO.eprint printout.errors
  pure (UInt32.ofNat printout.exitStatus)

end ErrorTaxonomy

def main (argv : List String) : IO UInt32 := do
  match ErrorTaxonomy.Arguments.parse argv with
  | .error usage => (ErrorTaxonomy.usagePrintout usage).deliver
  | .ok arguments =>
      let host ← ErrorTaxonomy.observeHost arguments
      match ErrorTaxonomy.prepareRun arguments host with
      | none => throw (IO.userError "the ancestors of an error have no end")
      | some prepared =>
          let progress ← ErrorTaxonomy.performRun arguments host prepared
          (ErrorTaxonomy.runPrintout (← ErrorTaxonomy.currentTime) arguments progress).deliver
