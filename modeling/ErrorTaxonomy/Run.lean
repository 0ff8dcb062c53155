import ErrorTaxonomy.Arguments
import ErrorTaxonomy.ConfigurationSearch
import ErrorTaxonomy.Document
import ErrorTaxonomy.Pipeline

/-!
# A run of the program

A run finds its configuration, compiles the input directory, emits the model and
writes the text to the output file; a run that only checks stops after compiling.
Everything up to the writing leaves the files alone.  The text is written to a
temporary file in the directory of the output, which then takes the place of the
output, so a run that fails leaves every file as it was.
-/

namespace ErrorTaxonomy

inductive RunError where
  | configuration (error : ConfigurationError)
  | taxonomy (error : TaxonomyError)
  | output (path : String) (fault : SystemFault)
  deriving DecidableEq

namespace RunError

def message : RunError → String
  | configuration error => error.message
  | taxonomy error => error.message
  | output path fault => "Failed to write `" ++ path ++ "`: " ++ fault.message

end RunError

/-- What a run has to write: a text, and how many errors it holds. -/
structure Rendering where
  text : String
  errors : Nat
  deriving DecidableEq

def runEntry (level : LogLevel) (message : String) (details : List (String × String)) :
    JournalEntry where
  level
  component := "errtax_cli"
  message
  details

def compileInput (arguments : Arguments) (host : Host) : Traced RunError Model := do
  Traced.note
    (runEntry .info "Processing taxonomy"
      [("input_dir", arguments.input), ("output_path", arguments.output),
       ("check", toString arguments.check)])
  let configuration ← (findConfiguration host arguments.config).mapError .configuration
  Traced.note
    (runEntry .debug "Configuration loaded" [("config", configuration.displayed)])
  (compileDirectory configuration host.tree arguments.input).mapError .taxonomy

/-- What is to be written of a model: nothing if the run only checks. -/
def prepareRendering (arguments : Arguments) (model : Model) :
    Option (Traced RunError (Option Rendering)) :=
  if arguments.check then
    some do
      Traced.note
        (runEntry .info "Taxonomy is valid, skipping output"
          [("errors", toString model.size)])
      pure none
  else
    (renderJson model).map fun rendered => do
      let text ← rendered.mapError .taxonomy
      pure (some { text, errors := model.size })

/-- A run up to its writing, or nothing if it does not get there because rendering the
model has no end. -/
def prepareRun (arguments : Arguments) (host : Host) :
    Option (Traced RunError (Option Rendering)) :=
  (compileInput arguments host).thenMaybe (prepareRendering arguments)

/-- The end of a run whose rendering has been written, or not. -/
def concludeRun (arguments : Arguments) (rendering : Rendering)
    (written : Except SystemFault Unit) : Traced RunError Unit := do
  Traced.ofExcept (written.mapError (.output arguments.output))
  Traced.note
    (runEntry .info "Taxonomy exported successfully"
      [("output_file", arguments.output), ("errors", toString rendering.errors)])

/-- A prepared run to its end, where `write` tells how writing a rendering goes. -/
def completeRun (arguments : Arguments) (prepared : Traced RunError (Option Rendering))
    (write : Rendering → Except SystemFault Unit) : Traced RunError Unit := do
  match ← prepared with
  | none => pure ()
  | some rendering => concludeRun arguments rendering (write rendering)

/-! ## Writing the output -/

def outputDirectory (path : String) : String :=
  match parentPath? path with
  | none => "."
  | some parent => if parent = "" then "." else parent

/-- Puts a text in the place of the output file, or leaves the tree as it was.  A
temporary file that has been created and is not renamed is taken away again. -/
def writeOutput (host : Host) (path text : String) : Except SystemFault Unit × FileTree :=
  match unlessRefused host.refusals.creating
      (host.tree.createTemporary (outputDirectory path)) with
  | .error fault => (.error fault, host.tree)
  | .ok (temporary, created) =>
      match unlessRefused host.refusals.filling
          (.ok (created.setEntry temporary (.file text.toUTF8))) with
      | .error fault => (.error fault, created.unlink temporary)
      | .ok filled =>
          match unlessRefused host.refusals.replacing (filled.rename temporary path) with
          | .error fault => (.error fault, filled.unlink temporary)
          | .ok renamed => (.ok (), renamed)

structure RunResult where
  progress : Traced RunError Unit
  tree : FileTree

/-- A prepared run to its end, and the files that it leaves. -/
def finishRun (arguments : Arguments) (host : Host)
    (prepared : Traced RunError (Option Rendering)) : RunResult :=
  let write (rendering : Rendering) := writeOutput host arguments.output rendering.text
  { progress := completeRun arguments prepared fun rendering => (write rendering).1
    tree :=
      match prepared.outcome with
      | .ok (some rendering) => (write rendering).2
      | _ => host.tree }

def run (arguments : Arguments) (host : Host) : Option RunResult :=
  (prepareRun arguments host).map (finishRun arguments host)

end ErrorTaxonomy
