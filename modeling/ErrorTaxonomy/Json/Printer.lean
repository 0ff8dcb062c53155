import ErrorTaxonomy.Json.Tree

/-!
# Writing JSON

A value has a compact text without any blank, and a pretty text with one item
or member a line, two blanks deeper for each level.  In strings only the quote,
the backslash and the characters below U+0020 are escaped; all others stand for
themselves.
-/

namespace ErrorTaxonomy

def hexDigit (value : Nat) : Char :=
  if value < 10 then Char.ofNat (value + 48) else Char.ofNat (value + 87)

namespace Json

def escapedChar (c : Char) : List Char :=
  if c = '"' then ['\\', '"']
  else if c = '\\' then ['\\', '\\']
  else if c = '\n' then ['\\', 'n']
  else if c = '\r' then ['\\', 'r']
  else if c = '\t' then ['\\', 't']
  else if c = Char.ofNat 8 then ['\\', 'b']
  else if c = Char.ofNat 12 then ['\\', 'f']
  else if c.toNat < 32 then
    ['\\', 'u', '0', '0', hexDigit (c.toNat / 16), hexDigit (c.toNat % 16)]
  else [c]

def escaped (text : List Char) : List Char :=
  text.flatMap escapedChar

def quoted (text : String) : List Char :=
  '"' :: (escaped text.toList ++ ['"'])

def boolText : Bool → List Char
  | true => ['t', 'r', 'u', 'e']
  | false => ['f', 'a', 'l', 's', 'e']

mutual

def compact : Json → List Char
  | array [] => ['[', ']']
  | array (first :: rest) => '[' :: (compact first ++ compactItems rest)
  | object [] => ['{', '}']
  | object ((key, first) :: rest) =>
      '{' :: (quoted key ++ ':' :: (compact first ++ compactMembers rest))
  | null => ['n', 'u', 'l', 'l']
  | bool value => boolText value
  | integer value => (toString value).toList
  | decimal literal => literal.toList
  | string text => quoted text

/-- The items after the first, and the closing bracket. -/
def compactItems : List Json → List Char
  | [] => [']']
  | item :: rest => ',' :: (compact item ++ compactItems rest)

/-- The members after the first, and the closing brace. -/
def compactMembers : List (String × Json) → List Char
  | [] => ['}']
  | (key, value) :: rest =>
      ',' :: (quoted key ++ ':' :: (compact value ++ compactMembers rest))

end

/-- A line break and the blanks in front of a line of the given depth. -/
def freshLine (depth : Nat) : List Char :=
  '\n' :: List.replicate (2 * depth) ' '

mutual

/-- The pretty text of a value whose first line stands at the given depth. -/
def prettyAt (depth : Nat) : Json → List Char
  | array [] => ['[', ']']
  | array (first :: rest) =>
      '[' :: (freshLine (depth + 1) ++ prettyAt (depth + 1) first ++
        prettyItems depth rest)
  | object [] => ['{', '}']
  | object ((key, first) :: rest) =>
      '{' :: (freshLine (depth + 1) ++ quoted key ++
        ':' :: ' ' :: (prettyAt (depth + 1) first ++ prettyMembers depth rest))
  | null => ['n', 'u', 'l', 'l']
  | bool value => boolText value
  | integer value => (toString value).toList
  | decimal literal => literal.toList
  | string text => quoted text

def prettyItems (depth : Nat) : List Json → List Char
  | [] => freshLine depth ++ [']']
  | item :: rest =>
      ',' :: (freshLine (depth + 1) ++ prettyAt (depth + 1) item ++
        prettyItems depth rest)

def prettyMembers (depth : Nat) : List (String × Json) → List Char
  | [] => freshLine depth ++ ['}']
  | (key, value) :: rest =>
      ',' :: (freshLine (depth + 1) ++ quoted key ++
        ':' :: ' ' :: (prettyAt (depth + 1) value ++ prettyMembers depth rest))

end

def pretty (value : Json) : List Char :=
  prettyAt 0 value

end Json

end ErrorTaxonomy
