import ErrorTaxonomy.Decoding
import ErrorTaxonomy.Toml.Parser

/-!
# Decoding TOML

Values are read off the table of a text.  The members of a table are read in the
order of their keys, whatever the order in which they are written, and members
of other keys are passed over.  A record may also be written as an array of the
values of its slots.
-/

namespace ErrorTaxonomy.Toml

def Reader (α : Type) : Type :=
  Value → Except Failure α

instance : Functor Reader where
  map f reader := fun value => (reader value).map f

def Value.found : Value → Found
  | string content _ => .text content
  | integer value _ => .integer value
  | decimal value _ => .decimal value.plain
  | boolean value _ => .boolean value
  | moment _ _ => .map
  | array _ _ => .sequence
  | tables _ _ => .sequence
  | table _ _ _ => .map

def complain (complaint : Complaint) (span : Span) : Failure where
  what := complaint.message
  span

def wrongType (expected : String) (value : Value) : Failure :=
  complain (.wrongType value.found expected) value.span

def readText : Reader String
  | .string content _ => .ok content
  | value => .error (wrongType "a string" value)

def items? : Value → Option (List Value)
  | .array items _ => some items
  | .tables items _ => some items
  | _ => none

def readList {α : Type} (reader : Reader α) : Reader (List α) := fun value =>
  match items? value with
  | some items => items.mapM reader
  | none => .error (wrongType "a sequence" value)

/-- The order of entries by the characters of their keys. -/
def keyLe (a b : String × Value) : Bool :=
  a.1 ≤ b.1

section

variable {Draft α : Type}

def readEntries (form : RecordForm Reader Draft α) :
    Draft → List (String × Value) → Except Failure Draft
  | draft, [] => .ok draft
  | draft, (key, value) :: entries =>
      match form.slot? key with
      | none => readEntries form draft entries
      | some slot => do
          let enter ← slot.reader value
          readEntries form (enter draft) entries

def readSlots : List (Slot Reader Draft) → Draft → List Value → Except Failure Draft
  | slot :: slots, draft, value :: values => do
      let enter ← slot.reader value
      readSlots slots (enter draft) values
  | _, draft, _ => .ok draft

/-- The record of a draft, or what is said of the member that it lacks. -/
def finishRecord (form : RecordForm Reader Draft α) (span : Span) (draft : Draft) :
    Except Failure α :=
  match form.finish draft with
  | .ok value => .ok value
  | .error key => .error (complain (.missingField key) span)

def readRecord (form : RecordForm Reader Draft α) : Reader α := fun value =>
  match value with
  | .table _ entries span => do
      let draft ← readEntries form form.blank (entries.mergeSort keyLe)
      finishRecord form span draft
  | .moment _ span => finishRecord form span form.blank
  | value =>
      match items? value with
      | some items => do
          let draft ← readSlots form.slots form.blank items
          finishRecord form value.span draft
      | none => .error (wrongType form.title value)

end

def chosen {α : Type} (choices : List (String × α)) (name : String) (span : Span) :
    Except Failure α :=
  match choices.find? fun choice => choice.1 = name with
  | some choice => .ok choice.2
  | none => .error (complain (.unknownChoice name (choices.map Prod.fst)) span)

def checkUnit : Value → Except Failure Unit
  | .array [] _ => .ok ()
  | .tables [] _ => .ok ()
  | .table _ [] _ => .ok ()
  | .array _ span => .error { what := "expected empty array", span }
  | .tables _ span => .error { what := "expected empty array", span }
  | .table _ _ span => .error { what := "expected empty table", span }
  | value => .error { what := "expected table, found " ++ kind value, span := value.span }
where
  kind : Value → String
    | .string _ _ => "string"
    | .integer _ _ => "integer"
    | .decimal _ _ => "float"
    | .boolean _ _ => "boolean"
    | .moment _ _ => "datetime"
    | .array _ _ => "array"
    | .tables _ _ => "array"
    | .table _ _ _ => "table"

/-- A choice is a text, or a table whose only key is named by it. -/
def readChoice {α : Type} (choices : List (String × α)) : Reader α
  | .string content span => chosen choices content span
  | .table _ [] span =>
      .error { what := "wanted exactly 1 element, found 0 elements", span }
  | .table _ [(name, value)] span => do
      let choice ← chosen choices name span
      checkUnit value
      pure choice
  | .table _ _ span =>
      .error { what := "wanted exactly 1 element, more than 1 element", span }
  | value => .error { what := "wanted string or table", span := value.span }

instance : Decoder Reader where
  text := readText
  list := readList
  record := readRecord

instance : ChoiceDecoder Reader where
  choice := readChoice

/-- The value that a text denotes, or what is said of a text that denotes none. -/
def decode {α : Type} (reader : Reader α) (text : String) : Except String α :=
  (parse text.toList >>= reader).mapError fun failure => failure.message text.toList

end ErrorTaxonomy.Toml
