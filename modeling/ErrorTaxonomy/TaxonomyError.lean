import ErrorTaxonomy.CompileError
import ErrorTaxonomy.LoadError

/-!
# Errors of a taxonomy

What goes wrong between definitions and the emitted text: files cannot be loaded,
another source of fragments gives none, fragments do not compile, or a model
cannot be emitted.
-/

namespace ErrorTaxonomy

/-- A model cannot be written as JSON, for the given reason. -/
inductive EmitError where
  | json (reason : String)
  deriving DecidableEq

namespace EmitError

def message : EmitError → String
  | json reason => "JSON serialization failed: " ++ reason

end EmitError

inductive TaxonomyError where
  | load (error : LoadError)
  | source (text : String)
  | compile (error : CompileError)
  | emit (error : EmitError)
  deriving DecidableEq

namespace TaxonomyError

def message : TaxonomyError → String
  | load error => error.message
  | source text => "Fragment source error: " ++ text
  | compile error => error.message
  | emit error => "Emit error: " ++ error.message

end TaxonomyError

end ErrorTaxonomy
