import ErrorTaxonomy.CompiledOrder
import ErrorTaxonomy.Displays

/-!
# Compilation

Fragments are validated, linked, ordered and typed, in this order, and the
first error of the first stage that fails is the error of the compilation.
Types come last, so of several unknown types the one that comes first in
compiled order is reported.
-/

namespace ErrorTaxonomy

def MetadataEntry.field (owner : String) (entry : MetadataEntry) :
    Except CompileError Field :=
  match FieldType.ofToken? entry.typeToken with
  | none => .error (.unknownType owner entry.shortName entry.typeToken)
  | some type =>
      .ok
        { format := entry.format
          abstractType := type
          resolvedType := type.native }

def PendingError.definition (pending : PendingError) :
    Except CompileError Definition := do
  let fields ← pending.entries.mapM (MetadataEntry.field pending.name)
  pure
    { name := pending.name
      interface := pending.interface
      message := pending.message
      level := pending.level
      parent := pending.parent
      fields }

def definitionsInOrder (pending : List PendingError) (nodes : List Nat) :
    Except CompileError (List Definition) :=
  (nodes.filterMap fun node => pending[node]?).mapM PendingError.definition

def compile (strategy : OrderingStrategy) (fragments : List Fragment) :
    Traced CompileError Model := do
  Traced.note
    { level := .info
      component := "errtax::compile"
      message := "Compiling taxonomy"
      details := [("fragments", toString fragments.length)] }
  let pending ← validate fragments
  let graph ← Traced.ofExcept (InheritanceGraph.build pending)
  Traced.note
    { level := .debug
      component := "errtax::compile"
      message := "Inheritance graph built"
      details :=
        [("errors", toString graph.size), ("roots", toString graph.roots.length)] }
  let nodes ← graph.order strategy
  Traced.note
    { level := .debug
      component := "errtax::compile"
      message := "Errors ordered"
      details := [("strategy", strategy.title)] }
  let definitions ← Traced.ofExcept (definitionsInOrder pending nodes)
  let model := Model.ofDefinitions definitions
  Traced.note
    { level := .info
      component := "errtax::compile"
      message := "Taxonomy compiled"
      details := [("errors", toString model.size)] }
  Traced.note
    { level := .trace
      component := "errtax::compile"
      message := "Compiled model"
      details := [("model", model.displayed)] }
  pure model

end ErrorTaxonomy
