import ErrorTaxonomy.Files.PathText
import ErrorTaxonomy.LoadError

/-!
# File trees

What the program sees of a file system: directories, files with their bytes, and
a current directory.  A location is the list of names on the way from the root.
A path is walked name by name, and every name on the way has to be that of a
directory.  The entries of a directory are enumerated in the order of the tree,
on which nothing should depend.

What stands at a location can always be told, but its content may be kept back: a
file may not be readable, a directory may not be opened, or its enumeration may
break off.  A tree has neither links nor entries of other kinds, and all names are
Unicode text.
-/

namespace ErrorTaxonomy

/-- An attempt that the system may refuse. -/
def unlessRefused {α : Type} (refusal : Option SystemFault)
    (attempt : Except SystemFault α) : Except SystemFault α :=
  match refusal with
  | some fault => .error fault
  | none => attempt

/-- What the system refuses to show of a directory: to open it, or to go on with
enumerating it. -/
structure DirectoryRefusals where
  opening : Option SystemFault := none
  continuing : Option SystemFault := none
  deriving DecidableEq

/-- A file has its bytes even if the system refuses to give them out. -/
inductive FileEntry where
  | directory (refusals : DirectoryRefusals := {})
  | file (content : ByteArray) (refusal : Option SystemFault := none)

abbrev Location : Type :=
  List String

/-- No location has two entries. -/
@[ext] structure FileTree where
  entries : List (Location × FileEntry)
  current : Location
  root : DirectoryRefusals := {}
  distinct : (entries.map Prod.fst).Nodup

namespace FileTree

/-- What stands at a location.  The root is always there. -/
def entry? (tree : FileTree) (location : Location) : Option FileEntry :=
  if location = [] then some (.directory tree.root)
  else (tree.entries.find? fun entry => entry.1 = location).map Prod.snd

/-! ## Paths -/

def pathNames (path : String) : List String :=
  ((splitSegments path.toList).filter (· ≠ [])).map String.ofList

def walkStart (tree : FileTree) (path : String) : Location :=
  if path.toList.head? = some '/' then [] else tree.current

def endsInSlash (path : String) : Bool :=
  path.toList.getLast? = some '/'

def requireDirectory (tree : FileTree) (location : Location) : Except SystemFault Unit :=
  match tree.entry? location with
  | some (.directory _) => .ok ()
  | some (.file _ _) => .error .notADirectory
  | none => .error .notFound

def follow (location : Location) (name : String) : Location :=
  if name = "." then location
  else if name = ".." then location.dropLast
  else location ++ [name]

/-- Walks from a location along names, each of which is looked up in a
directory.  Nothing need stand where the walk ends. -/
def walk (tree : FileTree) : Location → List String → Except SystemFault Location
  | location, [] => .ok location
  | location, name :: names => do
      tree.requireDirectory location
      tree.walk (follow location name) names

def locate (tree : FileTree) (path : String) : Except SystemFault Location :=
  if path = "" then .error .notFound
  else
    tree.walk (tree.walkStart path)
      (pathNames path ++ if endsInSlash path then ["."] else [])

def lookup (tree : FileTree) (path : String) : Except SystemFault FileEntry := do
  let location ← tree.locate path
  match tree.entry? location with
  | some entry => pure entry
  | none => throw .notFound

def pathExists (tree : FileTree) (path : String) : Bool :=
  match tree.lookup path with
  | .ok _ => true
  | .error _ => false

def isFile (tree : FileTree) (path : String) : Bool :=
  match tree.lookup path with
  | .ok (.file _ _) => true
  | _ => false

/-! ## Reading -/

/-- A directory can be opened like a file, but not read. -/
def readEntry : FileEntry → Except SystemFault ByteArray
  | .directory refusals => unlessRefused refusals.opening (.error .isADirectory)
  | .file content refusal => unlessRefused refusal (.ok content)

def decodeText (content : ByteArray) : Except SystemFault String :=
  match String.fromUTF8? content with
  | some text => .ok text
  | none => .error .invalidText

def readText (tree : FileTree) (path : String) : Except SystemFault String := do
  let entry ← tree.lookup path
  let content ← readEntry entry
  decodeText content

def nameIn? (directory location : Location) : Option String :=
  if location.dropLast = directory then location.getLast? else none

def namesIn (tree : FileTree) (directory : Location) : List String :=
  tree.entries.filterMap fun entry => nameIn? directory entry.1

/-- The names in a directory, one after the other, and at the end the fault with which
the enumeration breaks off, if it does. -/
def enumerate (tree : FileTree) (path : String) :
    Except SystemFault (List (Except SystemFault String)) := do
  let location ← tree.locate path
  match tree.entry? location with
  | some (.directory refusals) =>
      unlessRefused refusals.opening
        (.ok ((tree.namesIn location).map .ok ++ refusals.continuing.toList.map .error))
  | some (.file _ _) => throw .notADirectory
  | none => throw .notFound

/-- The names in a directory, in the order of enumeration, unless it breaks off. -/
def listDirectory (tree : FileTree) (path : String) : Except SystemFault (List String) := do
  let entries ← tree.enumerate path
  entries.mapM id

/-! ## Writing -/

def withEntry (location : Location) (entry : FileEntry)
    (entries : List (Location × FileEntry)) : List (Location × FileEntry) :=
  if entries.any fun other => other.1 = location then
    entries.map fun other => if other.1 = location then (location, entry) else other
  else entries ++ [(location, entry)]

theorem nodup_withEntry {location : Location} {entry : FileEntry}
    {entries : List (Location × FileEntry)} (hdistinct : (entries.map Prod.fst).Nodup) :
    ((withEntry location entry entries).map Prod.fst).Nodup := by
  unfold withEntry
  by_cases hany : (entries.any fun other => other.1 = location) = true
  · have hlocations : (entries.map fun other =>
        if other.1 = location then (location, entry) else other).map Prod.fst =
          entries.map Prod.fst := by
      rw [List.map_map]
      refine List.map_congr_left fun other _ => ?_
      by_cases heq : other.1 = location <;> simp [heq]
    rwa [if_pos hany, hlocations]
  · rw [if_neg hany, List.map_append]
    refine List.pairwise_append.mpr ⟨hdistinct, List.pairwise_singleton _ _, ?_⟩
    intro earlier hmem added hadded heq
    obtain ⟨other, hother, rfl⟩ := List.mem_map.mp hmem
    apply hany
    rw [List.any_eq_true]
    exact ⟨other, hother, by simpa [← heq] using hadded⟩

/-- Puts an entry at a location, in place of the one that is there. -/
def setEntry (tree : FileTree) (location : Location) (entry : FileEntry) : FileTree where
  entries := withEntry location entry tree.entries
  current := tree.current
  root := tree.root
  distinct := nodup_withEntry tree.distinct

/-- Takes away what stands at some locations. -/
def clear (tree : FileTree) (cleared : Location → Bool) : FileTree where
  entries := tree.entries.filter fun entry => !cleared entry.1
  current := tree.current
  root := tree.root
  distinct := (List.filter_sublist.map Prod.fst).nodup tree.distinct

/-- Takes away the file at a location. -/
def unlink (tree : FileTree) (location : Location) : FileTree :=
  tree.clear fun place => place = location

/-- The first of the names `.tmp0`, `.tmp1` and so on, from a number on, that is
not in use in a directory. -/
def freshName (tree : FileTree) (directory : Location) : Nat → Nat → String
  | 0, number => ".tmp" ++ toString number
  | fuel + 1, number =>
      let name := ".tmp" ++ toString number
      match tree.entry? (directory ++ [name]) with
      | none => name
      | some _ => tree.freshName directory fuel (number + 1)

/-- Creates an empty file with a name of its own in a directory.  More names are
tried than the tree has entries, so a fresh one is found. -/
def createTemporary (tree : FileTree) (directory : String) :
    Except SystemFault (Location × FileTree) := do
  let parent ← tree.locate directory
  tree.requireDirectory parent
  let location := parent ++ [tree.freshName parent tree.entries.length 0]
  pure (location, tree.setEntry location (.file ByteArray.empty))

def renameTarget (tree : FileTree) (path : String) : Except SystemFault Location := do
  if path = "" then throw .notFound
  match (pathNames path).getLast? with
  | none => throw .resourceBusy
  | some name =>
      let parent ← tree.walk (tree.walkStart path) (pathNames path).dropLast
      tree.requireDirectory parent
      if name = "." ∨ name = ".." then throw .resourceBusy
      else if endsInSlash path then throw .notADirectory
      else
        match tree.entry? (parent ++ [name]) with
        | some (.directory _) => throw .isADirectory
        | _ => pure (parent ++ [name])

/-- Moves the file at a location to a path, in place of a file that is there. -/
def rename (tree : FileTree) (source : Location) (path : String) :
    Except SystemFault FileTree := do
  let target ← tree.renameTarget path
  match tree.entry? source with
  | none => throw .notFound
  | some entry =>
      if target = source then pure tree
      else pure ((tree.unlink source).setEntry target entry)

/-! ## Setting up -/

/-- Makes the directories on the way to a location that are not there. -/
def makeDirectories (tree : FileTree) (location : Location) : FileTree :=
  ((List.range location.length).map fun length => location.take (length + 1)).foldl
    (fun tree place =>
      match tree.entry? place with
      | none => tree.setEntry place .directory
      | some _ => tree)
    tree

/-- The location of a path, whatever stands on the way. -/
def placeOf (tree : FileTree) (path : String) : Location :=
  (pathNames path).foldl follow (tree.walkStart path)

def putFile (tree : FileTree) (path : String) (content : ByteArray) : FileTree :=
  let location := tree.placeOf path
  (tree.makeDirectories location.dropLast).setEntry location (.file content)

def putDirectory (tree : FileTree) (path : String) : FileTree :=
  tree.makeDirectories (tree.placeOf path)

/-- Takes away what a path names and everything below it. -/
def remove (tree : FileTree) (path : String) : FileTree :=
  tree.clear (tree.placeOf path).isPrefixOf

def withCurrent (current : Location) : FileTree :=
  ({ entries := [], current, distinct := List.nodup_nil } : FileTree).makeDirectories
    current

end FileTree

end ErrorTaxonomy
