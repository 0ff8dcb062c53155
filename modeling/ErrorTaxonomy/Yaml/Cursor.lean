/-!
# Walking through a YAML text

A cursor is a place in a text: the mark that says where it is and the text that
is left.  Marks count characters, a carriage return and a line feed together as
one line break but as two characters.  A problem is something wrong at a mark,
often together with what was being scanned or parsed and where that began.
-/

namespace ErrorTaxonomy.Yaml

/-- A place in a text; all three numbers start from zero. -/
structure Mark where
  index : Nat := 0
  line : Nat := 0
  column : Nat := 0
  deriving DecidableEq

namespace Mark

/-- The mark as many characters further on the same line. -/
def forward (mark : Mark) (count : Nat) : Mark :=
  { mark with index := mark.index + count, column := mark.column + count }

/-- The mark after a line break of as many characters. -/
def nextLine (mark : Mark) (count : Nat) : Mark where
  index := mark.index + count
  line := mark.line + 1
  column := 0

def sameSpot (a b : Mark) : Bool :=
  a.line == b.line && a.column == b.column

/-- A mark in a message, which leaves out the beginning of the text. -/
def suffix (mark : Mark) : String :=
  if mark.sameSpot {} then ""
  else
    " at line " ++ toString (mark.line + 1) ++ " column " ++ toString (mark.column + 1)

end Mark

structure Problem where
  what : String
  mark : Mark
  context : Option (String × Mark) := none
  deriving DecidableEq

namespace Problem

def message (problem : Problem) : String :=
  problem.what ++ problem.mark.suffix ++
    match problem.context with
    | none => ""
    | some (doing, start) =>
        ", " ++ doing ++ if start.sameSpot problem.mark then "" else start.suffix

end Problem

/-- Something wrong at one mark while something is scanned from another mark. -/
def problemWhile (doing : String) (start : Mark) (what : String) (mark : Mark) : Problem where
  what
  mark
  context := some (doing, start)

/-- The mark of a byte order, which may stand in front of a text. -/
def byteOrderMark : Char :=
  Char.ofNat 0xFEFF

def isBlank (c : Char) : Bool :=
  c = ' ' || c = '\t'

def isBreak (c : Char) : Bool :=
  c = '\n' || c = '\r' || c.toNat = 0x85 || c.toNat = 0x2028 || c.toNat = 0x2029

def isBlankOrBreak (c : Char) : Bool :=
  isBlank c || isBreak c

def endsWord : List Char → Bool
  | [] => true
  | c :: _ => isBlankOrBreak c

/-- The letters of names: ASCII letters and digits, hyphen and underscore. -/
def isNameChar (c : Char) : Bool :=
  c.isAlphanum || c = '-' || c = '_'

def hexValue? (c : Char) : Option Nat :=
  if '0' ≤ c ∧ c ≤ '9' then some (c.toNat - 48)
  else if 'a' ≤ c ∧ c ≤ 'f' then some (c.toNat - 87)
  else if 'A' ≤ c ∧ c ≤ 'F' then some (c.toNat - 55)
  else none

structure Cursor where
  mark : Mark
  rest : List Char

namespace Cursor

/-- The cursor as many characters further, where the given text is left. -/
def forward (cursor : Cursor) (count : Nat) (rest : List Char) : Cursor where
  mark := cursor.mark.forward count
  rest

def span (kind : Char → Bool) (cursor : Cursor) : List Char × Cursor :=
  let taken := cursor.rest.takeWhile kind
  (taken, cursor.forward taken.length (cursor.rest.dropWhile kind))

def skipWhile (kind : Char → Bool) (cursor : Cursor) : Cursor :=
  (cursor.span kind).2

def pastBreak? (cursor : Cursor) : Option (Char × Cursor) :=
  match cursor.rest with
  | '\r' :: '\n' :: rest => some ('\n', { mark := cursor.mark.nextLine 2, rest })
  | c :: rest =>
      if isBreak c then
        some
          (if c.toNat = 0x2028 ∨ c.toNat = 0x2029 then c else '\n',
            { mark := cursor.mark.nextLine 1, rest })
      else none
  | [] => none

/-- Past a line break, if there is one. -/
def pastBreak (cursor : Cursor) : Cursor :=
  match cursor.pastBreak? with
  | some (_, next) => next
  | none => cursor

def sees (cursor : Cursor) (c : Char) : Bool :=
  match cursor.rest with
  | d :: _ => d = c
  | [] => false

def seesWordEnd (cursor : Cursor) : Bool :=
  endsWord cursor.rest

/-- Past a byte order mark at the beginning of a line. -/
def pastByteOrder (cursor : Cursor) : Cursor :=
  if cursor.mark.column = 0 ∧ cursor.sees byteOrderMark then
    cursor.forward 1 (cursor.rest.drop 1)
  else cursor

/-- Past blanks and a comment, up to the end of the line or to other text. -/
def pastComment (cursor : Cursor) : Cursor :=
  let cursor := cursor.skipWhile isBlank
  if cursor.sees '#' then cursor.skipWhile fun c => !isBreak c else cursor

/-- Whether a line begins here with a word of three equal characters. -/
def seesTriple (c : Char) (cursor : Cursor) : Bool :=
  cursor.mark.column == 0 &&
    match cursor.rest with
    | a :: b :: d :: rest => a == c && b == c && d == c && endsWord rest
    | _ => false

/-- Whether a document begins or ends here. -/
def seesDocumentMarker (cursor : Cursor) : Bool :=
  cursor.seesTriple '-' || cursor.seesTriple '.'

end Cursor

end ErrorTaxonomy.Yaml
