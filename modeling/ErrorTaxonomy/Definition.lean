import ErrorTaxonomy.Level
import ErrorTaxonomy.FieldType

/-!
# Error definitions

A definition is one error of a compiled taxonomy.  Its fields are known by
their short names, the part of a format string in front of its first equals
sign, so `ERRNO=%d` and `ERRNO` name the same field.
-/

namespace ErrorTaxonomy

/-- The text in front of the first `=`, or the whole text if there is none. -/
def shortName (format : String) : String :=
  String.ofList (format.toList.takeWhile (· ≠ '='))

structure Field where
  format : String
  abstractType : FieldType
  resolvedType : NativeType
  deriving DecidableEq

def Field.shortName (field : Field) : String :=
  ErrorTaxonomy.shortName field.format

structure Definition where
  name : String
  interface : Option String
  message : String
  level : Level
  parent : Option String
  fields : List Field
  deriving DecidableEq

namespace Definition

/-- A definition without interface, parent and fields. -/
def plain (name message : String) (level : Level) : Definition where
  name
  interface := none
  message
  level
  parent := none
  fields := []

/-- The first field of the given short name. -/
def field? (definition : Definition) (short : String) : Option Field :=
  definition.fields.find? (fun field => field.shortName = short)

end Definition

theorem shortName_toList (format : String) :
    (shortName format).toList = format.toList.takeWhile (· ≠ '=') := by
  simp [shortName]

end ErrorTaxonomy
