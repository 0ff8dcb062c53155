import ErrorTaxonomy.Json.Printer
import ErrorTaxonomy.Text.Hidden

/-!
# Quoted text in messages

Messages and the journal show a text between quotes in such a way that every
character can be told apart: quote and backslash are escaped, the usual control
characters have short names, and a character without a glyph of its own is
given by its number in braces.  Lists, records and tables are shown with all that
they hold.
-/

namespace ErrorTaxonomy

/-- A number in lower-case hexadecimal digits, without leading zeros. -/
def hexDigits (value : Nat) : List Char :=
  (Nat.toDigits 16 value).map Char.toLower

def displayedChar (c : Char) : List Char :=
  if c = '"' then ['\\', '"']
  else if c = '\\' then ['\\', '\\']
  else if c = '\n' then ['\\', 'n']
  else if c = '\r' then ['\\', 'r']
  else if c = '\t' then ['\\', 't']
  else if c.toNat = 0 then ['\\', '0']
  else if c.toNat < 32 ∨ c.toNat = 127 ∨ (127 < c.toNat ∧ isHidden c) then
    ['\\', 'u', '{'] ++ hexDigits c.toNat ++ ['}']
  else [c]

/-- A text between quotes, with all that would be mistaken escaped. -/
def displayed (text : String) : String :=
  String.ofList ('"' :: (text.toList.flatMap displayedChar ++ ['"']))

def displayedOption : Option String → String
  | none => "None"
  | some text => "Some(" ++ displayed text ++ ")"

def displayedList (items : List String) : String :=
  "[" ++ String.intercalate ", " items ++ "]"

/-- A record under its title, with its members in order. -/
def displayedRecord (title : String) (members : List (String × String)) : String :=
  title ++ " \x7b " ++
    String.intercalate ", " (members.map fun member => member.1 ++ ": " ++ member.2) ++ " \x7d"

/-- What stands under each key, in order. -/
def displayedTable (entries : List (String × String)) : String :=
  "\x7b" ++
    String.intercalate ", " (entries.map fun entry => displayed entry.1 ++ ": " ++ entry.2) ++
    "\x7d"

end ErrorTaxonomy
