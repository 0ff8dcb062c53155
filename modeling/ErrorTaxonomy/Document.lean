import ErrorTaxonomy.Json.Serializer
import ErrorTaxonomy.Model
import ErrorTaxonomy.TaxonomyError
import ErrorTaxonomy.Traced

/-!
# The emitted document

A model is emitted as one JSON object whose `errors` list the definitions in
compiled order.  An entry holds what the definition says, then the priority of
its level and the short names of all fields it carries, its own and those of
its ancestors.  An interface or parent that is absent leaves its member out.

The fields of all definitions are collected first.  This has no end in a model that
names parents in a circle; what has no end gives nothing here.  After that the
document may still fail to be written.
-/

namespace ErrorTaxonomy

def Field.json (field : Field) : Json :=
  .object
    [("short_name", .string field.shortName),
     ("format", .string field.format),
     ("abstract_type", .string field.abstractType.token),
     ("resolved_type", .string field.resolvedType.token)]

/-- A member that is left out when its value is absent. -/
def optionalMember (key : String) : Option String → List (String × Json)
  | none => []
  | some text => [(key, .string text)]

namespace Definition

def members (definition : Definition) : List (String × Json) :=
  [("name", .string definition.name)] ++
    optionalMember "interface" definition.interface ++
    [("message", .string definition.message),
     ("level", .string definition.level.token)] ++
    optionalMember "parent" definition.parent ++
    [("fields", .array (definition.fields.map Field.json))]

def json (definition : Definition) : Json :=
  .object definition.members

end Definition

/-- A definition with the short names of all fields it carries. -/
structure DocumentEntry where
  definition : Definition
  metadata : List String
  deriving DecidableEq

/-- An entry is a map into which the definition is flattened. -/
def DocumentEntry.serialize (entry : DocumentEntry) : Except String Json := do
  let members ← entry.definition.json.flattened
  Json.ofMap
    (members ++
      [(.string "priority", .integer entry.definition.level.priority),
       (.string "metadata", .array (entry.metadata.map .string))])

namespace Model

def entry? (model : Model) (definition : Definition) : Option DocumentEntry :=
  (model.inheritedFields? definition.name).map fun fields =>
    { definition, metadata := fields.map Field.shortName }

/-- The entries of all definitions, if the ancestors of each come to an end. -/
def entries? (model : Model) : Option (List DocumentEntry) :=
  model.definitions.mapM model.entry?

end Model

def serializeDocument (entries : List DocumentEntry) : Except String Json := do
  let errors ← entries.mapM DocumentEntry.serialize
  pure (.object [("errors", .array errors)])

inductive Layout where
  | compact
  | pretty
  deriving DecidableEq

namespace Layout

def text : Layout → Json → String
  | compact, value => String.ofList value.compact
  | pretty, value => String.ofList value.pretty

end Layout

/-- Writes the entries of a model, unless they cannot be serialized. -/
def writeEntries (layout : Layout) (entries : List DocumentEntry) :
    Traced EmitError String := do
  let document ← Traced.ofExcept ((serializeDocument entries).mapError .json)
  let text := layout.text document
  Traced.note
    { level := .debug
      component := "errtax::emit"
      message := "Model emitted as JSON"
      details :=
        [("bytes", toString text.utf8ByteSize),
         ("pretty", if layout = .pretty then "true" else "false")] }
  pure text

def emitJson (layout : Layout) (model : Model) : Option (Traced EmitError String) :=
  model.entries?.map (writeEntries layout)

/-- An emission in the frame that the journal puts around it. -/
def frameEmission (model : Model) (emission : Traced EmitError String) :
    Traced TaxonomyError String := do
  Traced.note
    { level := .info
      component := "errtax"
      message := "Rendering taxonomy"
      details := [("errors", toString model.size)] }
  let text ← emission.mapError .emit
  Traced.note
    { level := .info
      component := "errtax"
      message := "Taxonomy rendered successfully" }
  pure text

/-- Renders a model with any emitter. -/
def render (emitter : Model → Option (Traced EmitError String)) (model : Model) :
    Option (Traced TaxonomyError String) :=
  (emitter model).map (frameEmission model)

def renderJson (model : Model) : Option (Traced TaxonomyError String) :=
  render (emitJson .pretty) model

end ErrorTaxonomy
