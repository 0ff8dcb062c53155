import ErrorTaxonomy.Compilation
import ErrorTaxonomy.Loader
import ErrorTaxonomy.TaxonomyError

/-!
# From definitions to a model

Fragments come from a definition directory or from any other source that either
gives them or fails with a text.
-/

namespace ErrorTaxonomy

def compileSource (strategy : OrderingStrategy)
    (source : Traced String (List Fragment)) : Traced TaxonomyError Model := do
  let fragments ← source.mapError .source
  Traced.note
    { level := .debug
      component := "errtax"
      message := "Fragments collected"
      details := [("fragments", toString fragments.length)] }
  Traced.note
    { level := .trace
      component := "errtax"
      message := "Collected fragments"
      details := [("fragments", displayedList (fragments.map Fragment.displayed))] }
  (compile strategy fragments).mapError .compile

def compileDirectory (configuration : Configuration) (tree : FileTree) (path : String) :
    Traced TaxonomyError Model := do
  Traced.note
    { level := .info
      component := "errtax"
      message := "Compiling definition directory"
      details := [("dir", path)] }
  let directory : DefinitionDirectory := { path, suffixes := configuration.suffixes }
  let fragments ← (loadDirectory tree directory).mapError .load
  (compile configuration.ordering fragments).mapError .compile

def directorySource (tree : FileTree) (directory : DefinitionDirectory) :
    Traced String (List Fragment) :=
  (loadDirectory tree directory).mapError LoadError.message

end ErrorTaxonomy
