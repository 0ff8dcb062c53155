import ErrorTaxonomy.Json.Scanner

/-!
# Reading JSON

Lists, objects and records are read item by item.  Between items a step decides
whether another one follows or the bracket closes.  A record may be written as
an object, with its members in any order and members of other keys skipped, or
as a list of the values of its slots, of which the last may be left out.

A record that is faulty as a whole is blamed only after its closing bracket, if
that comes next; a wrong value is blamed where it ends, but a list or an object
of the wrong kind where it begins.
-/

namespace ErrorTaxonomy.Json

/-- What follows between the items of a list or an object. -/
inductive Advance where
  | item (rest : List Char)
  | closed (rest : List Char)

/-- Steps to the next item of a list or past its closing bracket. -/
def nextItem (first : Bool) (text : List Char) : Except Failure Advance :=
  match skipBlank text with
  | [] => .error (.before .endInList [])
  | c :: rest =>
      if c = ']' then .ok (.closed rest)
      else if first then .ok (.item (c :: rest))
      else if c = ',' then
        match skipBlank rest with
        | [] => .error (.before .endInValue [])
        | d :: rest =>
            if d = ']' then .error (.blaming .trailingComma (d :: rest))
            else .ok (.item (d :: rest))
      else .error (.blaming .expectedCommaOrBracket (c :: rest))

/-- Steps to the next key of an object, past its quote, or past the brace. -/
def nextKey (first : Bool) (text : List Char) : Except Failure Advance :=
  match skipBlank text with
  | [] => .error (.before .endInObject [])
  | c :: rest =>
      if c = '}' then .ok (.closed rest)
      else if first then
        if c = '"' then .ok (.item rest)
        else .error (.blaming .keyNotText (c :: rest))
      else if c = ',' then
        match skipBlank rest with
        | [] => .error (.before .endInValue [])
        | d :: rest =>
            if d = '"' then .ok (.item rest)
            else if d = '}' then .error (.blaming .trailingComma (d :: rest))
            else .error (.blaming .keyNotText (d :: rest))
      else .error (.blaming .expectedCommaOrBrace (c :: rest))

def scanColon (text : List Char) : Except Failure (List Char) :=
  match skipBlank text with
  | [] => .error (.before .endInObject [])
  | c :: rest =>
      if c = ':' then .ok rest else .error (.blaming .expectedColon (c :: rest))

/-- The end of a list of which no further item is wanted. -/
def closeList (text : List Char) : Except Failure (List Char) :=
  match skipBlank text with
  | [] => .error (.before .endInList [])
  | c :: rest =>
      if c = ']' then .ok rest
      else if c = ',' then
        match skipBlank rest with
        | ']' :: more => .error (.blaming .trailingComma (']' :: more))
        | rest => .error (.blaming .trailingText rest)
      else .error (.blaming .trailingText (c :: rest))

/-- The text after the brace that comes next, or after the blanks in front of
anything else. -/
def pastBrace (text : List Char) : List Char :=
  match skipBlank text with
  | '}' :: rest => rest
  | rest => rest

/-! ## Skipping values -/

/-- Skips the items of a list; after a comma there has to be another. -/
def skipItems (skipItem : List Char → Except Failure (List Char)) :
    Nat → Bool → List Char → Except Failure (List Char)
  | 0, _, text => .error (.before .endInList text)
  | fuel + 1, first, text =>
      match skipBlank text with
      | [] => .error (.before .endInList [])
      | c :: rest =>
          if c = ']' then .ok rest
          else if first then do
            let rest ← skipItem (c :: rest)
            skipItems skipItem fuel false rest
          else if c = ',' then do
            let rest ← skipItem rest
            skipItems skipItem fuel false rest
          else .error (.blaming .expectedCommaOrBracket (c :: rest))

def skipMember (skipItem : List Char → Except Failure (List Char))
    (text : List Char) : Except Failure (List Char) :=
  match skipBlank text with
  | [] => .error (.before .endInObject [])
  | c :: rest =>
      if c = '"' then do
        let rest ← skipString rest
        let rest ← scanColon rest
        skipItem rest
      else .error (.blaming .keyNotText (c :: rest))

/-- Skips the members of an object; after a comma there has to be another. -/
def skipMembers (skipItem : List Char → Except Failure (List Char)) :
    Nat → Bool → List Char → Except Failure (List Char)
  | 0, _, text => .error (.before .endInObject text)
  | fuel + 1, first, text =>
      match skipBlank text with
      | [] => .error (.before .endInObject [])
      | c :: rest =>
          if c = '}' then .ok rest
          else if first then do
            let rest ← skipMember skipItem (c :: rest)
            skipMembers skipItem fuel false rest
          else if c = ',' then do
            let rest ← skipMember skipItem rest
            skipMembers skipItem fuel false rest
          else .error (.blaming .expectedCommaOrBrace (c :: rest))

/-- Skips a value that is nested no deeper than the fuel. -/
def skipValue : Nat → List Char → Except Failure (List Char)
  | 0, text => .error (.before .endInValue text)
  | fuel + 1, text =>
      match skipBlank text with
      | [] => .error (.before .endInValue [])
      | c :: rest =>
          if c = '[' then skipItems (skipValue fuel) (rest.length + 1) true rest
          else if c = '{' then skipMembers (skipValue fuel) (rest.length + 1) true rest
          else skipScalar (c :: rest)

/-! ## Reading values -/

/-- A reader takes a value off the front of a text, blanks before it included. -/
def Reader (α : Type) : Type :=
  List Char → Except Failure (α × List Char)

instance : Functor Reader where
  map f reader := fun text => do
    let (value, rest) ← reader text
    pure (f value, rest)

/-- The failure of a value that is not what was expected. -/
def wrongType (expected : String) (text : List Char) : Failure :=
  match text with
  | '[' :: _ => .before (.mismatch (.wrongType .sequence expected)) text
  | '{' :: _ => .before (.mismatch (.wrongType .map expected)) text
  | _ =>
      match scanScalar text with
      | .error failure => failure
      | .ok (scalar, rest) => .before (.mismatch (.wrongType scalar.found expected)) rest

def readTextExpecting (expected : String) : Reader String := fun text =>
  match skipBlank text with
  | '"' :: rest => scanString rest
  | rest => .error (wrongType expected rest)

def readText : Reader String :=
  readTextExpecting "a string"

def readItems {α : Type} (item : Reader α) : Nat → Bool → Reader (List α)
  | 0, _ => fun text => .error (.before .endInList text)
  | fuel + 1, first => fun text => do
      match ← nextItem first text with
      | .closed rest => pure ([], rest)
      | .item rest =>
          let (value, rest) ← item rest
          let (values, rest) ← readItems item fuel false rest
          pure (value :: values, rest)

def readList {α : Type} (item : Reader α) : Reader (List α) := fun text =>
  match skipBlank text with
  | '[' :: rest => readItems item (rest.length + 1) true rest
  | rest => .error (wrongType "a sequence" rest)

section

variable {Draft α : Type}

/-- The members of a record, entered into a draft one after the other. -/
def readMembers (form : RecordForm Reader Draft α) :
    Nat → Bool → Draft → Reader Draft
  | 0, _, _ => fun text => .error (.before .endInObject text)
  | fuel + 1, first, draft => fun text => do
      match ← nextKey first text with
      | .closed rest => pure (draft, rest)
      | .item rest =>
          let (key, rest) ← scanString rest
          match form.slot? key with
          | none =>
              let rest ← scanColon rest
              let rest ← skipValue (rest.length + 1) rest
              readMembers form fuel false draft rest
          | some slot =>
              if slot.isFilled draft then
                throw (.before (.mismatch (.duplicateField key)) (pastBrace rest))
              else
                let rest ← scanColon rest
                let (enter, rest) ← slot.reader rest
                readMembers form fuel false (enter draft) rest

def readObject (form : RecordForm Reader Draft α) : Reader α := fun text => do
  let (draft, rest) ← readMembers form (text.length + 1) true form.blank text
  match form.finish draft with
  | .ok value => pure (value, rest)
  | .error key => throw (.before (.mismatch (.missingField key)) rest)

/-- The values of the slots, as many as there are. -/
def readSlots : List (Slot Reader Draft) → Bool → Draft → Reader Draft
  | [], _, draft => fun text => do
      let rest ← closeList text
      pure (draft, rest)
  | slot :: slots, first, draft => fun text => do
      match ← nextItem first text with
      | .closed rest => pure (draft, rest)
      | .item rest =>
          let (enter, rest) ← slot.reader rest
          readSlots slots false (enter draft) rest

def readTuple (form : RecordForm Reader Draft α) : Reader α := fun text => do
  let (draft, rest) ← readSlots form.slots true form.blank text
  match form.finish draft with
  | .ok value => pure (value, rest)
  | .error key =>
      let present := form.slots.findIdx fun slot => slot.key = key
      throw (.before (.mismatch (.wrongLength present form.listTitle)) rest)

def readRecord (form : RecordForm Reader Draft α) : Reader α := fun text =>
  match skipBlank text with
  | '{' :: rest => readObject form rest
  | '[' :: rest => readTuple form rest
  | rest => .error (wrongType form.title rest)

end

/-! ## Choices -/

def chosen {α : Type} (choices : List (String × α)) (name : String)
    (rest : List Char) : Except Failure (α × List Char) :=
  match choices.find? fun choice => choice.1 = name with
  | some choice => .ok (choice.2, rest)
  | none =>
      .error (.before (.mismatch (.unknownChoice name (choices.map Prod.fst))) rest)

/-- The value of a choice that is written as a member: it has to be null. -/
def scanUnit (text : List Char) : Except Failure (List Char) :=
  match skipBlank text with
  | 'n' :: rest => scanLiteral ['u', 'l', 'l'] rest
  | rest => .error (wrongType "unit" rest)

/-- A choice is a text, or an object whose only member is named by it. -/
def readChoice {α : Type} (choices : List (String × α)) : Reader α := fun text =>
  match skipBlank text with
  | [] => .error (.before .endInValue [])
  | c :: rest =>
      if c = '{' then do
        let (name, rest) ← readTextExpecting "variant identifier" rest
        let (value, rest) ← chosen choices name rest
        let rest ← scanColon rest
        let rest ← scanUnit rest
        match skipBlank rest with
        | [] => throw (.before .endInObject [])
        | '}' :: rest => pure (value, rest)
        | rest => throw (.before .expectedValue rest)
      else if c = '"' then do
        let (name, rest) ← scanString rest
        chosen choices name rest
      else .error (.blaming .expectedValue (c :: rest))

instance : Decoder Reader where
  text := readText
  list := readList
  record := readRecord

instance : ChoiceDecoder Reader where
  choice := readChoice

/-- Reads a text that holds one value and nothing after it. -/
def readWhole {α : Type} (reader : Reader α) (text : List Char) : Except Failure α := do
  let (value, rest) ← reader text
  match skipBlank rest with
  | [] => pure value
  | rest => throw (.blaming .trailingText rest)

/-- The value that a text denotes, or what is said of a text that denotes none. -/
def decode {α : Type} (reader : Reader α) (text : String) : Except String α :=
  (readWhole reader text.toList).mapError fun failure => failure.message text.toList

end ErrorTaxonomy.Json
