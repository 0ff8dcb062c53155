import ErrorTaxonomy.Declaration
import ErrorTaxonomy.Model
import ErrorTaxonomy.Text.Quoted

/-!
# Displayed fragments and models

At its most detailed level the journal shows all that a compilation starts from and
all that comes of it.
-/

namespace ErrorTaxonomy

def ErrorDeclaration.displayed (declaration : ErrorDeclaration) : String :=
  displayedRecord "ErrorDeclaration"
    [("name", ErrorTaxonomy.displayed declaration.name),
     ("description", ErrorTaxonomy.displayed declaration.description),
     ("inherits", displayedList (declaration.inherits.map ErrorTaxonomy.displayed))]

def MetadataEntry.displayed (entry : MetadataEntry) : String :=
  displayedRecord "MetaEntry"
    [("format", ErrorTaxonomy.displayed entry.format),
     ("type_name", ErrorTaxonomy.displayed entry.typeToken)]

def MetadataRecord.displayed (record : MetadataRecord) : String :=
  displayedRecord "MetadataDeclaration"
    [("name", ErrorTaxonomy.displayed record.name),
     ("level", ErrorTaxonomy.displayed record.level),
     ("meta", displayedList (record.entries.map MetadataEntry.displayed))]

def Fragment.displayed (fragment : Fragment) : String :=
  displayedRecord "Fragment"
    [("interface", displayedOption fragment.interface),
     ("errors", displayedList (fragment.errors.map ErrorDeclaration.displayed)),
     ("metadata", displayedList (fragment.metadata.map MetadataRecord.displayed))]

def Field.displayed (field : Field) : String :=
  displayedRecord "MetadataField"
    [("short_name", ErrorTaxonomy.displayed field.shortName),
     ("format", ErrorTaxonomy.displayed field.format),
     ("abstract_type", field.abstractType.title),
     ("resolved_type", field.resolvedType.title)]

def Definition.displayed (definition : Definition) : String :=
  displayedRecord "ErrorDefinition"
    [("name", ErrorTaxonomy.displayed definition.name),
     ("interface", displayedOption definition.interface),
     ("message", ErrorTaxonomy.displayed definition.message),
     ("level", definition.level.title),
     ("parent", displayedOption definition.parent),
     ("fields", displayedList (definition.fields.map Field.displayed))]

def Model.displayed (model : Model) : String :=
  displayedRecord "TaxonomyModel"
    [("errors",
        displayedTable
          (model.definitions.map fun definition => (definition.name, definition.displayed)))]

end ErrorTaxonomy
