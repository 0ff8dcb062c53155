import ErrorTaxonomy.Json.Reader
import ErrorTaxonomy.Json.Tree

/-!
# Reading any JSON

A text that may hold any value is read into a tree.  The members of an object are
kept in the order of their keys, and of several members of one key only the last.
Values nested too deeply are refused.
-/

namespace ErrorTaxonomy.Json

def Scalar.json : Scalar → Json
  | null => .null
  | boolean value => .bool value
  | number (.integer value) => .integer value
  | number (.decimal value) => .decimal value.concise
  | text content => .string content

/-- Enters a member in its place, or in place of the one of its key. -/
def insertMember (key : String) (value : Json) :
    List (String × Json) → List (String × Json)
  | [] => [(key, value)]
  | (other, old) :: rest =>
      if key = other then (key, value) :: rest
      else if key < other then (key, value) :: (other, old) :: rest
      else (other, old) :: insertMember key value rest

def readPairs (item : Reader Json) : Nat → Bool → Reader (List (String × Json))
  | 0, _ => fun text => .error (.before .endInObject text)
  | fuel + 1, first => fun text => do
      match ← nextKey first text with
      | .closed rest => pure ([], rest)
      | .item rest =>
          let (key, rest) ← scanString rest
          let rest ← scanColon rest
          let (value, rest) ← item rest
          let (pairs, rest) ← readPairs item fuel false rest
          pure ((key, value) :: pairs, rest)

/-- Any value with fewer levels of brackets than given. -/
def readTree : Nat → Reader Json
  | 0 => fun text => .error (.blaming .tooDeep (skipBlank text))
  | depth + 1 => fun text =>
      match skipBlank text with
      | [] => .error (.before .endInValue [])
      | c :: rest =>
          if c = '[' then
            if depth = 0 then .error (.blaming .tooDeep (c :: rest))
            else do
              let (items, rest) ← readItems (readTree depth) (rest.length + 1) true rest
              pure (.array items, rest)
          else if c = '{' then
            if depth = 0 then .error (.blaming .tooDeep (c :: rest))
            else do
              let (pairs, rest) ← readPairs (readTree depth) (rest.length + 1) true rest
              pure
                (.object
                  (pairs.foldl (fun members pair => insertMember pair.1 pair.2 members) []),
                  rest)
          else do
            let (scalar, rest) ← scanScalar (c :: rest)
            pure (scalar.json, rest)

def nestingLimit : Nat :=
  128

/-- The tree of a text, or what is said of a text that is not JSON. -/
def parse (text : String) : Except String Json :=
  decode (readTree nestingLimit) text

end ErrorTaxonomy.Json
