import ErrorTaxonomy.Binary64

/-!
# TOML values

A TOML text is a table of values, each with the span of the text where it is
written.  A span is given by the text from its beginning on and the text after
its end; what is said of it points at the line where it begins.
-/

namespace ErrorTaxonomy.Toml

structure Span where
  start : List Char
  stop : List Char
  deriving DecidableEq

/-- How a table came about, which decides what may still be added to it. -/
inductive Origin where
  | implied
  | header
  | dotted
  | inline
  deriving DecidableEq

inductive Value where
  | string (content : String) (span : Span)
  | integer (value : Int) (span : Span)
  | decimal (value : Binary64) (span : Span)
  | boolean (value : Bool) (span : Span)
  | moment (text : String) (span : Span)
  | array (items : List Value) (span : Span)
  | tables (items : List Value) (span : Span)
  | table (origin : Origin) (entries : List (String × Value)) (span : Span)

def Value.span : Value → Span
  | string _ span => span
  | integer _ span => span
  | decimal _ span => span
  | boolean _ span => span
  | moment _ span => span
  | array _ span => span
  | tables _ span => span
  | table _ _ span => span

structure Failure where
  what : String
  span : Span
  deriving DecidableEq

def byteLength (text : List Char) : Nat :=
  text.foldl (fun length char => length + char.utf8Size) 0

/-- The line in which a suffix of a text begins: how many lines there are before
it, the part of it before the suffix, and the line as a whole. -/
def lineOf (text suffix : List Char) : Nat × List Char × List Char :=
  let before := text.take (text.length - suffix.length)
  let leading := (before.reverse.takeWhile (· ≠ '\n')).reverse
  let following := suffix.takeWhile (· ≠ '\n')
  (before.count '\n', leading, leading ++ following)

def spaces (count : Nat) : String :=
  String.ofList (List.replicate count ' ')

/-- What is said of a failure: its line, with carets under its span. -/
def Failure.message (failure : Failure) (text : List Char) : String :=
  let (lines, leading, line) := lineOf text failure.span.start
  let number := toString (lines + 1)
  let column := leading.length
  let width := byteLength failure.span.start - byteLength failure.span.stop
  let carets := max 1 (min width (byteLength line - column))
  let gutter := spaces (number.length + 1) ++ "|"
  "TOML parse error at line " ++ number ++ ", column " ++ toString (column + 1) ++ "\n" ++
    gutter ++ "\n" ++ number ++ " | " ++ String.ofList line ++ "\n" ++
    gutter ++ spaces (column + 1) ++ String.ofList (List.replicate carets '^') ++ "\n" ++
    failure.what ++ "\n"

end ErrorTaxonomy.Toml
