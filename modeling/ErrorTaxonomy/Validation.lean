import ErrorTaxonomy.CompileError
import ErrorTaxonomy.Declaration
import ErrorTaxonomy.Definition
import ErrorTaxonomy.Traced

/-!
# Validation of fragments

Fragments are read as one sequence of declared errors, each met together with
the interface of its fragment and the metadata record that belongs to it.  The
sequence is checked in the order of encounter and the first violation decides:
a name met before, a missing record, an unknown level, a repeated field, in
this order of precedence for one declaration.  What passes is pending: its
level is known, its parent is a bare name that may not exist, and the types of
its fields are still tokens.
-/

namespace ErrorTaxonomy

structure Encounter where
  interface : Option String
  declaration : ErrorDeclaration
  record? : Option MetadataRecord
  deriving DecidableEq

namespace Fragment

def encounters (fragment : Fragment) : List Encounter :=
  fragment.errors.map fun declaration =>
    { interface := fragment.interface
      declaration
      record? := fragment.record? declaration.name }

end Fragment

/-- All declared errors, fragment by fragment. -/
def encounters (fragments : List Fragment) : List Encounter :=
  fragments.flatMap Fragment.encounters

def MetadataEntry.shortName (entry : MetadataEntry) : String :=
  ErrorTaxonomy.shortName entry.format

/-- A validated error that awaits its place in the order and its types. -/
structure PendingError where
  name : String
  interface : Option String
  message : String
  level : Level
  parent : Option String
  entries : List MetadataEntry
  deriving DecidableEq

/-- The first element that repeats an earlier one or one already seen. -/
def firstRepeated? {α : Type} [DecidableEq α] (seen : List α) : List α → Option α
  | [] => none
  | a :: rest => if a ∈ seen then some a else firstRepeated? (a :: seen) rest

namespace Encounter

def name (encounter : Encounter) : String :=
  encounter.declaration.name

/-- Checks one declared error by itself, given the record that belongs to it. -/
def pendingWith (encounter : Encounter) (record : MetadataRecord) :
    Except CompileError PendingError :=
  match Level.ofToken? record.level with
  | none => .error (.unknownLevel encounter.name record.level)
  | some level =>
      match firstRepeated? [] (record.entries.map MetadataEntry.shortName) with
      | some field => .error (.duplicateField encounter.name field)
      | none =>
          .ok
            { name := encounter.name
              interface := encounter.interface
              message := encounter.declaration.description
              level
              parent := encounter.declaration.parent?
              entries := record.entries }

/-- Checks one declared error after the given names have been met. -/
def pending (seen : List String) (encounter : Encounter) :
    Except CompileError PendingError :=
  if encounter.name ∈ seen then .error (.duplicateName encounter.name)
  else
    match encounter.record? with
    | none => .error (.missingMetadata encounter.name)
    | some record => encounter.pendingWith record

/-- Ancestors after the first are left out, which the journal mentions. -/
def remarks (encounter : Encounter) : List JournalEntry :=
  let count := encounter.declaration.inherits.length
  if 1 < count then
    [{ level := .debug
       component := "errtax::validate"
       message := "Only the first inherited error is used"
       details := [("error", encounter.name), ("ignored", toString (count - 1))] }]
  else []

/-- The check of one declared error with what the journal says of it. -/
def validated (seen : List String) (encounter : Encounter) :
    Traced CompileError PendingError :=
  match encounter.pending seen with
  | .error error => .fail error
  | .ok pending => { journal := encounter.remarks, outcome := .ok pending }

end Encounter

/-- Checks declared errors one after the other. -/
def validateAll (seen : List String) :
    List Encounter → Traced CompileError (List PendingError)
  | [] => pure []
  | encounter :: rest => do
      let pending ← encounter.validated seen
      let others ← validateAll (encounter.name :: seen) rest
      pure (pending :: others)

/-- The pending errors of the fragments, in the order of encounter. -/
def validate (fragments : List Fragment) :
    Traced CompileError (List PendingError) := do
  let pending ← validateAll [] (encounters fragments)
  Traced.note
    { level := .debug
      component := "errtax::validate"
      message := "Fragments validated"
      details := [("errors", toString pending.length)] }
  pure pending

@[simp] theorem outcome_validated (seen : List String) (encounter : Encounter) :
    (encounter.validated seen).outcome = encounter.pending seen := by
  unfold Encounter.validated
  cases encounter.pending seen <;> rfl

end ErrorTaxonomy
