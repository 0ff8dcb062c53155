/-!
# Paths as texts

A path is a text; what it names depends on where it is used.  This module only
takes paths apart and puts them together.  Empty segments and segments of a
single dot mean nothing, except for a dot at the very beginning; they are dropped
at the end of what is taken apart, and kept elsewhere.
-/

namespace ErrorTaxonomy

def splitSegments : List Char → List (List Char)
  | [] => [[]]
  | c :: rest =>
      if c = '/' then [] :: splitSegments rest
      else
        match splitSegments rest with
        | [] => [[c]]
        | segment :: segments => (c :: segment) :: segments

def joinSegments : List (List Char) → List Char
  | [] => []
  | [segment] => segment
  | segment :: segments => segment ++ '/' :: joinSegments segments

/-- A path taken apart: a slash or a dot at its beginning, and the segments. -/
structure PathParts where
  anchor : List Char
  segments : List (List Char)
  deriving DecidableEq

namespace PathParts

/-- The segments of what follows the beginning of a path, none if it is empty. -/
def bodySegments (body : List Char) : List (List Char) :=
  if body = [] then [] else splitSegments body

def ofText (path : List Char) : PathParts :=
  match path with
  | '/' :: body => { anchor := ['/'], segments := bodySegments body }
  | ['.'] => { anchor := ['.'], segments := [] }
  | '.' :: '/' :: body => { anchor := ['.'], segments := splitSegments ('/' :: body) }
  | body => { anchor := [], segments := bodySegments body }

def text (parts : PathParts) : List Char :=
  parts.anchor ++ joinSegments parts.segments

def isVoid (segment : List Char) : Bool :=
  segment = [] || segment = ['.']

/-- Without the segments at the end that mean nothing. -/
def trimmed (parts : PathParts) : PathParts :=
  { parts with segments := (parts.segments.reverse.dropWhile isVoid).reverse }

end PathParts

/-- The last segment, unless the path ends in the directory above or has none. -/
def fileName? (path : String) : Option String :=
  match (PathParts.ofText path.toList).trimmed.segments.getLast? with
  | none => none
  | some name => if name = ['.', '.'] then none else some (String.ofList name)

/-- The path without its last segment; the root and the empty path have none. -/
def parentPath? (path : String) : Option String :=
  let parts := (PathParts.ofText path.toList).trimmed
  if parts.segments = [] then if parts.anchor = ['.'] then some "" else none
  else
    let shorter : PathParts := { parts with segments := parts.segments.dropLast }
    some (String.ofList shorter.trimmed.text)

/-- A path and a name below it.  A name that begins with a slash stands alone. -/
def joinPath (path name : String) : String :=
  if name.toList.head? = some '/' ∨ path = "" then name
  else if path.toList.getLast? = some '/' then path ++ name
  else path ++ "/" ++ name

/-- The path with another last segment, or with one more if it has none. -/
def withFileName (path name : String) : String :=
  match fileName? path with
  | none => joinPath path name
  | some _ => joinPath ((parentPath? path).getD "") name

end ErrorTaxonomy
