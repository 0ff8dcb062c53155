import ErrorTaxonomy.Yaml.Token

/-!
# Scanning directives, anchors and tags

A directive stands on a line of its own in front of a document.  Anchors,
aliases and tags stand in front of nodes or in their place.
-/

namespace ErrorTaxonomy.Yaml

/-! ## Anchors and aliases -/

def endsName : List Char → Bool
  | [] => true
  | c :: _ =>
      isBlankOrBreak c || c = '?' || c = ':' || c = ',' || c = ']' || c = '}' ||
        c = '%' || c = '@' || c = '`'

/-- The name of an anchor or an alias, from its indicator on. -/
def scanName (doing : String) (cursor : Cursor) : Except Problem (String × Cursor) :=
  let (name, next) := (cursor.forward 1 (cursor.rest.drop 1)).span isNameChar
  if name = [] ∨ endsName next.rest = false then
    .error (problemWhile doing cursor.mark
      "did not find expected alphabetic or numeric character" next.mark)
  else .ok (String.ofList name, next)

/-! ## Tags -/

structure TagPlace where
  handleDoing : String
  uriDoing : String
  start : Mark

def tagOfNode (start : Mark) : TagPlace where
  handleDoing := "while scanning a tag"
  uriDoing := "while parsing a tag"
  start

def tagOfDirective (start : Mark) : TagPlace where
  handleDoing := "while scanning a tag directive"
  uriDoing := "while parsing a %TAG directive"
  start

def isTagChar (c : Char) : Bool :=
  isNameChar c || c = ';' || c = '/' || c = '?' || c = ':' || c = '@' || c = '&' ||
    c = '=' || c = '+' || c = '$' || c = '.' || c = '!' || c = '~' || c = '*' ||
    c = '\'' || c = '(' || c = ')'

/-- The characters that a tag may hold between angle brackets only. -/
def isBracketedTagChar (c : Char) : Bool :=
  c = ',' || c = '[' || c = ']'

/-- One escaped byte. -/
def scanByte (place : TagPlace) (cursor : Cursor) : Except Problem (Nat × Cursor) :=
  let problem := Except.error
    (problemWhile place.uriDoing place.start "did not find URI escaped octet" cursor.mark)
  match cursor.rest with
  | '%' :: a :: b :: rest =>
      match hexValue? a, hexValue? b with
      | some a, some b => .ok (a * 16 + b, cursor.forward 3 rest)
      | _, _ => problem
  | _ => problem

/-- As many bytes that continue a character. -/
def scanTrailingBytes (place : TagPlace) : Nat → Cursor → Except Problem Cursor
  | 0, cursor => .ok cursor
  | count + 1, cursor => do
      let (byte, next) ← scanByte place cursor
      if byte / 64 = 2 then scanTrailingBytes place count next
      else
        throw (problemWhile place.uriDoing place.start
          "found an incorrect trailing UTF-8 octet" cursor.mark)

/-- A character that is written in escaped bytes.  No tag with a meaning holds a
character of several bytes, so these all read alike. -/
def scanEscapedChar (place : TagPlace) (cursor : Cursor) :
    Except Problem (Char × Cursor) := do
  let (byte, next) ← scanByte place cursor
  if byte < 0x80 then pure (Char.ofNat byte, next)
  else if byte < 0xC0 ∨ 0xF7 < byte then
    throw (problemWhile place.uriDoing place.start
      "found an incorrect leading UTF-8 octet" cursor.mark)
  else
    let count := if byte < 0xE0 then 1 else if byte < 0xF0 then 2 else 3
    let next ← scanTrailingBytes place count next
    pure (Char.ofNat 0xFFFD, next)

/-- The characters of a tag as long as there are any. -/
def scanTagChars (place : TagPlace) (bracketed : Bool) :
    Nat → Cursor → Except Problem (List Char × Cursor)
  | 0, cursor => .ok ([], cursor)
  | fuel + 1, cursor =>
      match cursor.rest with
      | [] => .ok ([], cursor)
      | c :: rest =>
          if c = '%' then do
            let (character, next) ← scanEscapedChar place cursor
            let (more, next) ← scanTagChars place bracketed fuel next
            pure (character :: more, next)
          else if isTagChar c ∨ (bracketed ∧ isBracketedTagChar c) then do
            let (more, next) ← scanTagChars place bracketed fuel (cursor.forward 1 rest)
            pure (c :: more, next)
          else .ok ([], cursor)

/-- The characters of a tag after a beginning that has been read already. -/
def scanTagRest (place : TagPlace) (bracketed : Bool) (beginning : List Char)
    (fuel : Nat) (cursor : Cursor) : Except Problem (List Char × Cursor) := do
  let (characters, next) ← scanTagChars place bracketed fuel cursor
  if beginning = [] ∧ next.mark = cursor.mark then
    throw (problemWhile place.uriDoing place.start "did not find expected tag URI" next.mark)
  pure (beginning.drop 1 ++ characters, next)

/-- A handle: an exclamation mark, a name, and mostly another exclamation mark. -/
def scanHandle (place : TagPlace) (cursor : Cursor) : Except Problem (List Char × Cursor) :=
  if cursor.sees '!' then
    let (name, next) := (cursor.forward 1 (cursor.rest.drop 1)).span isNameChar
    if next.sees '!' then
      .ok ('!' :: (name ++ ['!']), next.forward 1 (next.rest.drop 1))
    else .ok ('!' :: name, next)
  else
    .error (problemWhile place.handleDoing place.start "did not find expected '!'" cursor.mark)

/-- Whether a handle is one in full, with both exclamation marks. -/
def isFullHandle (handle : List Char) : Bool :=
  handle.length ≠ 1 && handle.getLast? = some '!'

/-- The handle and the suffix of a tag, from its exclamation mark on. -/
def scanTagParts (fuel : Nat) (cursor : Cursor) :
    Except Problem (List Char × List Char × Cursor) := do
  let place := tagOfNode cursor.mark
  match cursor.rest with
  | _ :: '<' :: rest =>
      let (suffix, next) ← scanTagRest place true [] fuel (cursor.forward 2 rest)
      if next.sees '>' then pure ([], suffix, next.forward 1 (next.rest.drop 1))
      else
        throw (problemWhile place.handleDoing place.start
          "did not find the expected '>'" next.mark)
  | _ =>
      let (handle, next) ← scanHandle place cursor
      if isFullHandle handle then
        let (suffix, next) ← scanTagRest place false [] fuel next
        pure (handle, suffix, next)
      else
        let (suffix, next) ← scanTagRest place false handle fuel next
        if suffix = [] then pure ([], ['!'], next) else pure (['!'], suffix, next)

/-- A tag, which has to end as a word does. -/
def scanTag (inFlow : Bool) (fuel : Nat) (cursor : Cursor) :
    Except Problem (TokenKind × Cursor) := do
  let (handle, suffix, next) ← scanTagParts fuel cursor
  if (inFlow ∧ next.sees ',') ∨ next.seesWordEnd then
    pure (.tag (String.ofList handle) (String.ofList suffix), next)
  else
    throw (problemWhile "while scanning a tag" cursor.mark
      "did not find expected whitespace or line break" next.mark)

/-! ## Directives -/

/-- The digits of a version number that are read at most. -/
def versionDigits : Nat :=
  9

def scanVersionNumber (start : Mark) (cursor : Cursor) : Except Problem (Nat × Cursor) :=
  let problem := problemWhile "while scanning a %YAML directive" start
  let (digits, next) := cursor.span Char.isDigit
  if versionDigits < digits.length then
    .error (problem "found extremely long version number"
      (cursor.mark.forward versionDigits))
  else if digits = [] then .error (problem "did not find expected version number" next.mark)
  else .ok (digits.foldl (fun value c => value * 10 + (c.toNat - 48)) 0, next)

def scanVersion (start : Mark) (cursor : Cursor) : Except Problem (TokenKind × Cursor) := do
  let (major, next) ← scanVersionNumber start (cursor.skipWhile isBlank)
  if next.sees '.' then
    let (minor, next) ← scanVersionNumber start (next.forward 1 (next.rest.drop 1))
    pure (.version major minor, next)
  else
    throw (problemWhile "while scanning a %YAML directive" start
      "did not find expected digit or '.' character" next.mark)

def scanShorthand (start : Mark) (fuel : Nat) (cursor : Cursor) :
    Except Problem (TokenKind × Cursor) := do
  let place := tagOfDirective start
  let problem := problemWhile "while scanning a %TAG directive" start
  let (handle, next) ← scanHandle place (cursor.skipWhile isBlank)
  if handle ≠ ['!'] ∧ isFullHandle handle = false then
    throw (problemWhile "while parsing a tag directive" start
      "did not find expected '!'" next.mark)
  if (next.skipWhile isBlank).mark = next.mark then
    throw (problem "did not find expected whitespace" next.mark)
  let (expansion, next) ← scanTagRest place true [] fuel (next.skipWhile isBlank)
  if next.seesWordEnd then
    pure (.tagShorthand (String.ofList handle) (String.ofList expansion), next)
  else
    throw (problem "did not find expected whitespace or line break" next.mark)

def scanDirectiveValue (start : Mark) (fuel : Nat) (name : List Char) (cursor : Cursor) :
    Except Problem (TokenKind × Cursor) :=
  let problem := problemWhile "while scanning a directive" start
  if name = [] then
    .error (problem "could not find expected directive name" cursor.mark)
  else if cursor.seesWordEnd = false then
    .error (problem "found unexpected non-alphabetical character" cursor.mark)
  else if name = ['Y', 'A', 'M', 'L'] then scanVersion start cursor
  else if name = ['T', 'A', 'G'] then scanShorthand start fuel cursor
  else .error (problem "found unknown directive name" cursor.mark)

/-- A directive, from its percent sign on.  The token ends with what the directive
says, the cursor stands at the next line. -/
def scanDirective (fuel : Nat) (cursor : Cursor) : Except Problem (Token × Cursor) := do
  let start := cursor.mark
  let (name, next) := (cursor.forward 1 (cursor.rest.drop 1)).span isNameChar
  let (kind, next) ← scanDirectiveValue start fuel name next
  let lineEnd := next.pastComment
  if lineEnd.rest ≠ [] ∧ lineEnd.pastBreak?.isNone then
    throw (problemWhile "while scanning a directive" start
      "did not find expected comment or line break" lineEnd.mark)
  pure ({ kind, start, stop := next.mark }, lineEnd.pastBreak)

end ErrorTaxonomy.Yaml
