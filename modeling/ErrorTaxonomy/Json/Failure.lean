import ErrorTaxonomy.Decoding

/-!
# Where and why reading JSON fails

A failure is a fault and a place.  The place is given by the text that is left
to be read there, and by how many bytes beyond its beginning are blamed, so that
reading itself never counts anything.  Lines and columns are worked out from the
whole text when a message is wanted; a column is the number of bytes of the line
that lie before the place or are blamed.
-/

namespace ErrorTaxonomy.Json

inductive Fault where
  | endInValue
  | endInList
  | endInObject
  | endInString
  | expectedColon
  | expectedCommaOrBracket
  | expectedCommaOrBrace
  | expectedIdentifier
  | expectedValue
  | invalidEscape
  | invalidNumber
  | numberOutOfRange
  | controlCharacter
  | keyNotText
  | loneSurrogate
  | unfinishedEscape
  | trailingComma
  | trailingText
  | tooDeep
  | mismatch (complaint : Complaint)
  deriving DecidableEq

namespace Fault

def message : Fault → String
  | endInValue => "EOF while parsing a value"
  | endInList => "EOF while parsing a list"
  | endInObject => "EOF while parsing an object"
  | endInString => "EOF while parsing a string"
  | expectedColon => "expected `:`"
  | expectedCommaOrBracket => "expected `,` or `]`"
  | expectedCommaOrBrace => "expected `,` or `\x7d`"
  | expectedIdentifier => "expected ident"
  | expectedValue => "expected value"
  | invalidEscape => "invalid escape"
  | invalidNumber => "invalid number"
  | numberOutOfRange => "number out of range"
  | controlCharacter =>
      "control character (\\u0000-\\u001F) found while parsing a string"
  | keyNotText => "key must be a string"
  | loneSurrogate => "lone leading surrogate in hex escape"
  | unfinishedEscape => "unexpected end of hex escape"
  | trailingComma => "trailing comma"
  | trailingText => "trailing characters"
  | tooDeep => "recursion limit exceeded"
  | mismatch complaint => complaint.message

end Fault

/-- A fault, the text left where it was noticed, and the bytes of it blamed. -/
structure Failure where
  fault : Fault
  rest : List Char
  blamed : Nat
  deriving DecidableEq

namespace Failure

def before (fault : Fault) (rest : List Char) : Failure where
  fault
  rest
  blamed := 0

/-- A fault of the first character that is left, if there is one. -/
def blaming (fault : Fault) (rest : List Char) : Failure where
  fault
  rest
  blamed := 1

end Failure

def byteLength (text : List Char) : Nat :=
  text.foldl (fun length char => length + char.utf8Size) 0

/-- Line and column after as many bytes of a text as given, counted from a line
and a column. -/
def positionAfter (line column : Nat) : List Char → Nat → Nat × Nat
  | _, 0 => (line, column)
  | [], _ + 1 => (line, column)
  | c :: rest, bytes + 1 =>
      if c = '\n' then positionAfter (line + 1) 0 rest bytes
      else positionAfter line (column + min c.utf8Size (bytes + 1)) rest
        (bytes + 1 - c.utf8Size)

def Failure.message (failure : Failure) (text : List Char) : String :=
  let read := byteLength text - byteLength failure.rest
  let (line, column) := positionAfter 1 0 text (read + failure.blamed)
  failure.fault.message ++ " at line " ++ toString line ++ " column " ++
    toString column

end ErrorTaxonomy.Json
