import ErrorTaxonomy.Yaml.Document
import ErrorTaxonomy.Yaml.Meaning

/-!
# Decoding YAML

Values are read off the nodes of a document.  Any scalar is a text; nothing at
all, and a plain scalar without characters, is an empty list or a record without
members.  Members of other keys are passed over.

A failure tells the path to the value: positions in lists and keys of records.
An alias is read in its place, so its path is that of the alias, while its mark
is where the anchored value stands.
-/

namespace ErrorTaxonomy.Yaml

inductive Path where
  | root
  | item (list : Path) (position : Nat)
  | member (record : Path) (key : Option String)

namespace Path

def isRoot : Path → Bool
  | root => true
  | _ => false

def text : Path → String
  | root => "."
  | item list position => list.text ++ "[" ++ toString position ++ "]"
  | member record key =>
      (if record.isRoot then "" else record.text ++ ".") ++ key.getD "?"

end Path

inductive DecodeFailure where
  | complaint (complaint : Complaint) (mark : Mark) (path : Path)
  | missingPart
  | tooManyAliases

/-- Reading a value off a node of a document, at a path.  The number is how many
aliases may still be followed. -/
def Reader (α : Type) : Type :=
  Document → Path → Node → Nat → Except DecodeFailure (α × Nat)

instance : Functor Reader where
  map f reader := fun document path node budget => do
    let (value, budget) ← reader document path node budget
    pure (f value, budget)

/-- The node that stands for a node: itself, or the one that an alias refers to. -/
def resolve (document : Document) (node : Node) (budget : Nat) :
    Except DecodeFailure (Node × Nat) :=
  match node with
  | .alias _ number =>
      match budget with
      | 0 => .error .tooManyAliases
      | budget + 1 =>
          match document.target? number with
          | some target => .ok (target, budget)
          | none => .error .missingPart
  | _ => .ok (node, budget)

/-- The failure of a node that stands where something else is expected. -/
def wrongType (expected : String) (path : Path) : Node → DecodeFailure
  | .scalar mark style tag content =>
      .complaint (scalarComplaint style tag content expected) mark path
  | .sequence mark _ => .complaint (.wrongType .sequence expected) mark path
  | .mapping mark _ => .complaint (.wrongType .map expected) mark path
  | .alias _ _ => .missingPart
  | .missing => .missingPart

def readTextExpecting (expected : String) : Reader String :=
  fun document path node budget => do
    let (node, budget) ← resolve document node budget
    match node with
    | .scalar _ _ _ content => pure (content, budget)
    | node => throw (wrongType expected path node)

def readText : Reader String :=
  readTextExpecting "a string"

/-- Whether a node is a plain scalar without characters. -/
def isEmptyPlain : Node → Bool
  | .scalar _ .plain _ "" => true
  | _ => false

/-- Reads the items of a list that is not cut short. -/
def readItems {α : Type} (reader : Reader α) (document : Document) (path : Path) :
    Nat → List Node → Nat → Except DecodeFailure (List α × Nat)
  | _, [], budget => .ok ([], budget)
  | position, node :: nodes, budget => do
      let (value, budget) ← reader document (.item path position) node budget
      let (values, budget) ← readItems reader document path (position + 1) nodes budget
      pure (value :: values, budget)

def readList {α : Type} (reader : Reader α) : Reader (List α) :=
  fun document path node budget => do
    let (node, budget) ← resolve document node budget
    match node with
    | .sequence _ items => readItems reader document path 0 items budget
    | node =>
        if isEmptyPlain node then pure ([], budget)
        else throw (wrongType "a sequence" path node)

mutual

/-- Whether no part of a node is missing. -/
def Node.isComplete : Node → Bool
  | .missing => false
  | .scalar _ _ _ _ => true
  | .alias _ _ => true
  | .sequence _ items => areComplete items
  | .mapping _ entries => entriesAreComplete entries

def areComplete : List Node → Bool
  | [] => true
  | node :: nodes => node.isComplete && areComplete nodes

def entriesAreComplete : List (Node × Node) → Bool
  | [] => true
  | (key, value) :: entries =>
      key.isComplete && value.isComplete && entriesAreComplete entries

end

/-- The key by which a path names a member; an alias does not name it. -/
def pathKey : Node → Option String
  | .scalar _ _ _ content => some content
  | _ => none

section

variable {Draft α : Type}

/-- The members of a record, entered into a draft one after the other. -/
def readEntries (form : RecordForm Reader Draft α) (document : Document) (path : Path)
    (mark : Mark) : Draft → List (Node × Node) → Nat → Except DecodeFailure (Draft × Nat)
  | draft, [], budget => .ok (draft, budget)
  | draft, (keyNode, node) :: entries, budget => do
      let (key, budget) ←
        readTextExpecting "field identifier" document path keyNode budget
      match form.slot? key with
      | none =>
          if node.isComplete then readEntries form document path mark draft entries budget
          else throw .missingPart
      | some slot =>
          if slot.isFilled draft then
            throw (.complaint (.duplicateField key) mark path)
          else
            let (enter, budget) ←
              slot.reader document (.member path (pathKey keyNode)) node budget
            readEntries form document path mark (enter draft) entries budget

def readMembers (form : RecordForm Reader Draft α) (document : Document) (path : Path)
    (mark : Mark) (entries : List (Node × Node)) (budget : Nat) :
    Except DecodeFailure (α × Nat) := do
  let (draft, budget) ← readEntries form document path mark form.blank entries budget
  match form.finish draft with
  | .ok value => pure (value, budget)
  | .error key => throw (.complaint (.missingField key) mark path)

def readRecord (form : RecordForm Reader Draft α) : Reader α :=
  fun document path node budget => do
    let (node, budget) ← resolve document node budget
    match node with
    | .mapping mark entries => readMembers form document path mark entries budget
    | .scalar mark .plain _ "" => readMembers form document path mark [] budget
    | node => throw (wrongType form.title path node)

end

instance : Decoder Reader where
  text := readText
  list := readList
  record := readRecord

/-! ## Whole texts -/

/-- What is said of a text that cannot be decoded, and where it went wrong, with
line and column counted from one. -/
structure Failure where
  message : String
  position : Option (Nat × Nat)
  deriving DecidableEq

def failureAt (message : String) (mark : Mark) : Failure where
  message
  position := some (mark.line + 1, mark.column + 1)

def DocumentFault.failure : DocumentFault → Failure
  | problem cause => failureAt cause.message cause.mark
  | unknownAnchor mark => failureAt ("unknown anchor" ++ mark.suffix) mark

/-- A failure within a document, which a fault of the document may explain. -/
def DecodeFailure.failure (document : Document) : DecodeFailure → Failure
  | complaint wrong mark path =>
      failureAt
        ((if path.isRoot then "" else path.text ++ ": ") ++ wrong.message ++ mark.suffix)
        mark
  | missingPart =>
      match document.fault with
      | some fault => fault.failure
      | none => { message := "EOF while parsing a value", position := none }
  | tooManyAliases => { message := "repetition limit exceeded", position := none }

/-- How many aliases may be followed for each event of a document. -/
def aliasesPerEvent : Nat :=
  100

/-- The list of values that a document holds.  Nothing may follow the document. -/
def decodeDocument {α : Type} (reader : Reader α) (document : Document) :
    Except Failure (List α) := do
  let values ←
    match document.root with
    | none => pure []
    | some root =>
        match readList reader document .root root (aliasesPerEvent * document.events) with
        | .ok (values, _) => pure values
        | .error failure => throw (failure.failure document)
  match document.fault with
  | some fault => throw fault.failure
  | none =>
      if document.isAlone then pure values
      else
        throw
          { message :=
              "deserializing from YAML containing more than one document is not supported"
            position := none }

def decodeList {α : Type} (reader : Reader α) (text : String) : Except Failure (List α) :=
  decodeDocument reader (readDocument text.toList)

end ErrorTaxonomy.Yaml
