/-!
# Declarations

What a taxonomy is compiled from.  An interface contributes one fragment: its
declared errors and, kept apart from them, the metadata records that give an
error its level and its fields.  Nothing here is checked yet; levels and types
are the tokens as written, and ancestors are qualified names.
-/

namespace ErrorTaxonomy

structure ErrorDeclaration where
  name : String
  description : String := ""
  inherits : List String := []
  deriving DecidableEq

/-- One field of an error: its format string and the token of its type. -/
structure MetadataEntry where
  format : String
  typeToken : String
  deriving DecidableEq

structure MetadataRecord where
  name : String
  level : String
  entries : List MetadataEntry := []
  deriving DecidableEq

structure Fragment where
  interface : Option String := none
  errors : List ErrorDeclaration := []
  metadata : List MetadataRecord := []
  deriving DecidableEq

namespace Fragment

/-- The first record of a name; later ones of the same name are ignored. -/
def record? (fragment : Fragment) (name : String) : Option MetadataRecord :=
  fragment.metadata.find? (fun record => record.name = name)

end Fragment

/-- The text after the last dot, or the whole text if there is none. -/
def lastComponent (qualified : String) : String :=
  String.ofList (qualified.toList.reverse.takeWhile (· ≠ '.')).reverse

namespace ErrorDeclaration

/-- Only the first ancestor counts, and of it only its last component. -/
def parent? (declaration : ErrorDeclaration) : Option String :=
  declaration.inherits.head?.map lastComponent

end ErrorDeclaration

end ErrorTaxonomy
