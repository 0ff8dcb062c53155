import ErrorTaxonomy.Decoding
import ErrorTaxonomy.OrderingStrategy

/-!
# Configuration

What can be set of a compilation: the ordering strategy, and the suffixes by
which the files of a definition directory are told apart.  A configuration says
only what it changes.
-/

namespace ErrorTaxonomy

/-- The suffixes of the names of errors files and of metadata files. -/
structure Suffixes where
  errors : String := ".errors.yaml"
  metadata : String := ".metadata.yaml"
  deriving DecidableEq

structure Configuration where
  ordering : OrderingStrategy := .queue
  suffixes : Suffixes := {}
  deriving DecidableEq

namespace Configuration

def displayed (configuration : Configuration) : String :=
  displayedRecord "AppConfig"
    [("compiler",
        displayedRecord "CompilerConfig" [("ordering", configuration.ordering.title)]),
     ("loader",
        displayedRecord "LoaderSettings"
          [("errors_suffix", ErrorTaxonomy.displayed configuration.suffixes.errors),
           ("metadata_suffix", ErrorTaxonomy.displayed configuration.suffixes.metadata)])]

def orderingChoices : List (String × OrderingStrategy) :=
  [(OrderingStrategy.queue.name, .queue), (OrderingStrategy.multiPass.name, .multiPass)]

structure OrderingDraft where
  ordering : Option OrderingStrategy := none

def orderingForm (Reader : Type → Type) [ChoiceDecoder Reader] :
    RecordForm Reader OrderingDraft OrderingStrategy where
  title := "struct CompilerConfig"
  slots :=
    [{ key := "ordering"
       reader := (fun value draft => { draft with ordering := some value }) <$>
         ChoiceDecoder.choice orderingChoices
       isFilled := fun draft => draft.ordering.isSome }]
  blank := {}
  finish := fun draft => .ok (draft.ordering.getD .queue)

structure SuffixesDraft where
  errors : Option String := none
  metadata : Option String := none

def SuffixesDraft.finish (draft : SuffixesDraft) : Except String Suffixes :=
  let default : Suffixes := {}
  .ok
    { errors := draft.errors.getD default.errors
      metadata := draft.metadata.getD default.metadata }

def suffixesForm (Reader : Type → Type) [Decoder Reader] :
    RecordForm Reader SuffixesDraft Suffixes where
  title := "struct LoaderSettings"
  slots :=
    [{ key := "errors_suffix"
       reader := (fun value draft => { draft with errors := some value }) <$>
         Decoder.text
       isFilled := fun draft => draft.errors.isSome },
     { key := "metadata_suffix"
       reader := (fun value draft => { draft with metadata := some value }) <$>
         Decoder.text
       isFilled := fun draft => draft.metadata.isSome }]
  blank := {}
  finish := SuffixesDraft.finish

structure Draft where
  ordering : Option OrderingStrategy := none
  suffixes : Option Suffixes := none

def Draft.finish (draft : Draft) : Except String Configuration :=
  .ok
    { ordering := draft.ordering.getD .queue
      suffixes := draft.suffixes.getD {} }

def form (Reader : Type → Type) [ChoiceDecoder Reader] :
    RecordForm Reader Draft Configuration where
  title := "struct AppConfig"
  slots :=
    [{ key := "compiler"
       reader := (fun value draft => { draft with ordering := some value }) <$>
         Decoder.record (orderingForm Reader)
       isFilled := fun draft => draft.ordering.isSome },
     { key := "loader"
       reader := (fun value draft => { draft with suffixes := some value }) <$>
         Decoder.record (suffixesForm Reader)
       isFilled := fun draft => draft.suffixes.isSome }]
  blank := {}
  finish := Draft.finish

end Configuration

def readConfiguration {Reader : Type → Type} [ChoiceDecoder Reader] :
    Reader Configuration :=
  Decoder.record (Configuration.form Reader)

end ErrorTaxonomy
