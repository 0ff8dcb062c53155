import ErrorTaxonomy.Text.Quoted

/-!
# Decoding records

Declarations are read from several notations, and a configuration too.  What a
record consists of is said once, as a form: the keys of its members, how the
value of each is read, and what is made of the members that were there.  A
notation says how a text, a list and a record of a given form are read in it.

A form collects the members in a draft, one after the other and in any order.
The draft knows which members it has, so a repeated key is noticed, and at the
end it says either what it amounts to or which member is missing.
-/

namespace ErrorTaxonomy

inductive Found where
  | null
  | unit
  | boolean (value : Bool)
  | integer (value : Int)
  | wideInteger (value : Int) (width : String)
  | decimal (numeral : String)
  | text (content : String)
  | sequence
  | map
  deriving DecidableEq

def Found.phrase : Found → String
  | null => "null"
  | unit => "unit value"
  | boolean true => "boolean `true`"
  | boolean false => "boolean `false`"
  | integer value => "integer `" ++ toString value ++ "`"
  | wideInteger value width => "integer `" ++ toString value ++ "` as " ++ width
  | decimal numeral => "floating point `" ++ numeral ++ "`"
  | text content => "string " ++ displayed content
  | sequence => "sequence"
  | map => "map"

inductive Complaint where
  | wrongType (found : Found) (expected : String)
  | wrongValue (found : Found) (expected : String)
  | missingField (key : String)
  | duplicateField (key : String)
  | wrongLength (length : Nat) (expected : String)
  | unknownChoice (name : String) (choices : List String)
  deriving DecidableEq

namespace Complaint

def message : Complaint → String
  | wrongType found expected =>
      "invalid type: " ++ found.phrase ++ ", expected " ++ expected
  | wrongValue found expected =>
      "invalid value: " ++ found.phrase ++ ", expected " ++ expected
  | missingField key => "missing field `" ++ key ++ "`"
  | duplicateField key => "duplicate field `" ++ key ++ "`"
  | wrongLength length expected =>
      "invalid length " ++ toString length ++ ", expected " ++ expected
  | unknownChoice name choices =>
      "unknown variant `" ++ name ++ "`, expected " ++
        String.intercalate " or " (choices.map fun choice => "`" ++ choice ++ "`")

end Complaint

/-- A member of a record: its key, how its value is read and entered into a
draft, and whether a draft has it. -/
structure Slot (Reader : Type → Type) (Draft : Type) where
  key : String
  reader : Reader (Draft → Draft)
  isFilled : Draft → Bool

/-- What a record consists of.  The slots stand in the order in which a
notation without keys lists their values; `finish` gives the record of a draft
or the key of the first member it lacks. -/
structure RecordForm (Reader : Type → Type) (Draft α : Type) where
  title : String
  slots : List (Slot Reader Draft)
  blank : Draft
  finish : Draft → Except String α

namespace RecordForm

variable {Reader : Type → Type} {Draft α : Type}

def slot? (form : RecordForm Reader Draft α) (key : String) :
    Option (Slot Reader Draft) :=
  form.slots.find? fun slot => slot.key = key

/-- What is expected of a list of values that stands for the record. -/
def listTitle (form : RecordForm Reader Draft α) : String :=
  form.title ++ " with " ++ toString form.slots.length ++
    if form.slots.length = 1 then " element" else " elements"

end RecordForm

/-- A notation in which texts, lists and records are read. -/
class Decoder (Reader : Type → Type) extends Functor Reader where
  text : Reader String
  list {α : Type} : Reader α → Reader (List α)
  record {Draft α : Type} : RecordForm Reader Draft α → Reader α

/-- A notation in which one of several names is read. -/
class ChoiceDecoder (Reader : Type → Type) extends Decoder Reader where
  choice {α : Type} : List (String × α) → Reader α

end ErrorTaxonomy
