import ErrorTaxonomy.DeclarationForms
import ErrorTaxonomy.Text.Blank
import ErrorTaxonomy.Yaml.Decoder

/-!
# Definition texts

The two kinds of definition text: a list of error declarations, and a list of
metadata records.  A text without anything but white space holds an empty list.
-/

namespace ErrorTaxonomy

def parseDefinitions {α : Type} (reader : Yaml.Reader α) (text : String) :
    Except Yaml.Failure (List α) :=
  if isBlankText text then .ok [] else Yaml.decodeList reader text

def parseErrors (text : String) : Except Yaml.Failure (List ErrorDeclaration) :=
  parseDefinitions readErrorDeclaration text

def parseMetadata (text : String) : Except Yaml.Failure (List MetadataRecord) :=
  parseDefinitions readMetadataRecord text

end ErrorTaxonomy
