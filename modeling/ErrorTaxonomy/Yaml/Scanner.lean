import ErrorTaxonomy.Yaml.PropertyScanner
import ErrorTaxonomy.Yaml.ScalarScanner

/-!
# Scanning YAML

The scanner turns a text into tokens.  A token in front of which a key may begin
is remembered as a possible key, one for the block context and one for each flow
collection that is open; when a colon follows it on the same line, a key token is
put in front of it after the fact.  A possible key at the column of its block
collection has to become one.

Tokens are handed on only as long as no key token can be put in front of them.
So when the scan stops at a problem, the tokens after the first possible key are
lost, and what is read of the text before it does not depend on them.
-/

namespace ErrorTaxonomy.Yaml

/-- A place where a key may have begun: the number of its first token, whether a
colon has to follow, and its mark. -/
structure PossibleKey where
  number : Nat
  isRequired : Bool
  mark : Mark

namespace PossibleKey

/-- The number of characters in which the colon has to follow. -/
def reach : Nat :=
  1024

def isStale (key : PossibleKey) (mark : Mark) : Bool :=
  key.mark.line < mark.line || key.mark.index + reach < mark.index

def problem (key : PossibleKey) (mark : Mark) : Problem :=
  problemWhile "while scanning a simple key" key.mark "could not find expected ':'" mark

end PossibleKey

/-- The scan so far.  `indent` is the column of the innermost block collection
and `outer` has those around it; `keys` has the possible keys, of the innermost
flow collection first and of the block context last; `tokens` are the latest
first, and the first `settled` of them in the text will have no key token put in
front. -/
structure Scanner where
  cursor : Cursor
  indent : Int := -1
  outer : List Int := []
  keys : List (Option PossibleKey) := [none]
  mayStartKey : Bool := true
  tokens : List Token := []
  count : Nat := 0
  settled : Nat := 0
  isDone : Bool := false

namespace Scanner

def mark (scanner : Scanner) : Mark :=
  scanner.cursor.mark

def inFlow (scanner : Scanner) : Bool :=
  1 < scanner.keys.length

def add (scanner : Scanner) (token : Token) : Scanner :=
  { scanner with tokens := token :: scanner.tokens, count := scanner.count + 1 }

/-- Puts a token in front of the one of the given number. -/
def insertAt (scanner : Scanner) (number : Nat) (token : Token) : Scanner :=
  let newer := scanner.count - number
  { scanner with
    tokens := scanner.tokens.take newer ++ token :: scanner.tokens.drop newer
    count := scanner.count + 1 }

/-- Adds the token of an indicator of as many characters and passes it. -/
def addIndicator (scanner : Scanner) (kind : TokenKind) (width : Nat) : Scanner :=
  let next := scanner.cursor.forward width (scanner.cursor.rest.drop width)
  { scanner.add { kind, start := scanner.mark, stop := next.mark } with cursor := next }

/-! ## Possible keys -/

def setKey (scanner : Scanner) (key : Option PossibleKey) : Scanner :=
  { scanner with keys := key :: scanner.keys.drop 1 }

def currentKey (scanner : Scanner) : Option PossibleKey :=
  scanner.keys.head?.join

def dropKey (scanner : Scanner) : Except Problem Scanner :=
  match scanner.currentKey with
  | some key =>
      if key.isRequired then .error (key.problem scanner.mark)
      else .ok (scanner.setKey none)
  | none => .ok (scanner.setKey none)

def saveKey (scanner : Scanner) : Except Problem Scanner := do
  if scanner.mayStartKey then
    let scanner ← scanner.dropKey
    pure
      (scanner.setKey
        (some
          { number := scanner.count
            isRequired := !scanner.inFlow && scanner.indent == scanner.mark.column
            mark := scanner.mark }))
  else pure scanner

/-- Gives up the possible keys that the colon can no longer follow. -/
def dropStaleKeys (scanner : Scanner) : Except Problem Scanner :=
  let isStale := fun key : PossibleKey => key.isStale scanner.mark
  match (scanner.keys.reverse.filterMap id).find? fun key => isStale key && key.isRequired with
  | some key => .error (key.problem scanner.mark)
  | none =>
      .ok { scanner with keys := scanner.keys.map fun key => key.filter fun k => !isStale k }

/-- The number of tokens in front of the first possible key. -/
def certain (scanner : Scanner) : Nat :=
  (scanner.keys.filterMap id).foldl (fun number key => min number key.number) scanner.count

/-- Settles all tokens in front of the first possible key. -/
def settle (scanner : Scanner) : Except Problem Scanner := do
  if scanner.settled < scanner.count then
    let scanner ← scanner.dropStaleKeys
    pure { scanner with settled := scanner.certain }
  else pure scanner

/-! ## Indentation -/

/-- The number of collections that a line at a column ends, and the columns that
are left. -/
def endedBy (column : Int) : Int → List Int → Nat × Int × List Int
  | indent, [] => (0, indent, [])
  | indent, next :: outer =>
      if column < indent then
        let (ended, indent, outer) := endedBy column next outer
        (ended + 1, indent, outer)
      else (0, indent, next :: outer)

def unroll (scanner : Scanner) (column : Int) : Scanner :=
  if scanner.inFlow then scanner
  else
    let (ended, indent, outer) := endedBy column scanner.indent scanner.outer
    let token : Token := { kind := .blockEnd, start := scanner.mark, stop := scanner.mark }
    { scanner with
      indent
      outer
      tokens := List.replicate ended token ++ scanner.tokens
      count := scanner.count + ended }

/-- Begins a block collection at a mark, if it is to the right of the one around
it.  Its token is put in front of the token of the given number. -/
def roll (scanner : Scanner) (kind : TokenKind) (mark : Mark) (number : Nat) : Scanner :=
  if scanner.inFlow then scanner
  else if scanner.indent < mark.column then
    { scanner.insertAt number { kind, start := mark, stop := mark } with
      indent := mark.column
      outer := scanner.indent :: scanner.outer }
  else scanner

/-- The least column of the lines that belong to the innermost collection. -/
def contentColumn (scanner : Scanner) : Nat :=
  (scanner.indent + 1).toNat

/-! ## Tokens -/

/-- Passes blanks, comments and line breaks, and a byte order mark at the beginning
of a line.  In the block context a key may begin on a new line, and tabs may not
stand where it could begin. -/
def toNextToken : Nat → Scanner → Scanner
  | 0, scanner => scanner
  | fuel + 1, scanner =>
      let takesTabs := scanner.inFlow || !scanner.mayStartKey
      let next := scanner.cursor.pastByteOrder
      let next := next.skipWhile fun c => c = ' ' || (takesTabs && c = '\t')
      let next := if next.sees '#' then next.skipWhile fun c => !isBreak c else next
      match next.pastBreak? with
      | some (_, next) =>
          toNextToken fuel
            { scanner with
              cursor := next
              mayStartKey := scanner.mayStartKey || !scanner.inFlow }
      | none => { scanner with cursor := next }

def fetchEnd (scanner : Scanner) : Except Problem Scanner := do
  let mark := scanner.mark
  let mark := if mark.column = 0 then mark else mark.nextLine 0
  let scanner := { scanner with cursor := { scanner.cursor with mark } }
  let scanner ← (scanner.unroll (-1)).dropKey
  pure
    { scanner.add { kind := .streamEnd, start := mark, stop := mark } with
      mayStartKey := false
      isDone := true }

def fetchDirective (scanner : Scanner) (fuel : Nat) : Except Problem Scanner := do
  let scanner ← (scanner.unroll (-1)).dropKey
  let (token, next) ← scanDirective fuel scanner.cursor
  pure { scanner.add token with cursor := next, mayStartKey := false }

def fetchDocumentMarker (scanner : Scanner) (kind : TokenKind) : Except Problem Scanner := do
  let scanner ← (scanner.unroll (-1)).dropKey
  pure { scanner.addIndicator kind 3 with mayStartKey := false }

def fetchFlowStart (scanner : Scanner) (kind : TokenKind) : Except Problem Scanner := do
  let scanner ← scanner.saveKey
  pure { scanner.addIndicator kind 1 with keys := none :: scanner.keys, mayStartKey := true }

def fetchFlowEnd (scanner : Scanner) (kind : TokenKind) : Except Problem Scanner := do
  let scanner ← scanner.dropKey
  pure
    { scanner.addIndicator kind 1 with
      keys := if scanner.inFlow then scanner.keys.drop 1 else scanner.keys
      mayStartKey := false }

def fetchFlowEntry (scanner : Scanner) : Except Problem Scanner := do
  let scanner ← scanner.dropKey
  pure { scanner.addIndicator .flowEntry 1 with mayStartKey := true }

/-- Fails unless a collection may begin here. -/
def checkMayStart (scanner : Scanner) (what : String) : Except Problem Unit :=
  if scanner.inFlow ∨ scanner.mayStartKey then .ok ()
  else .error { what, mark := scanner.mark }

def fetchBlockEntry (scanner : Scanner) : Except Problem Scanner := do
  scanner.checkMayStart "block sequence entries are not allowed in this context"
  let scanner ← (scanner.roll .blockSequenceStart scanner.mark scanner.count).dropKey
  pure { scanner.addIndicator .blockEntry 1 with mayStartKey := true }

def fetchKey (scanner : Scanner) : Except Problem Scanner := do
  scanner.checkMayStart "mapping keys are not allowed in this context"
  let scanner ← (scanner.roll .blockMappingStart scanner.mark scanner.count).dropKey
  pure { scanner.addIndicator .key 1 with mayStartKey := !scanner.inFlow }

/-- A colon makes a key of the possible key, or follows a key that was marked. -/
def fetchValue (scanner : Scanner) : Except Problem Scanner := do
  match scanner.currentKey with
  | some key =>
      let scanner := scanner.insertAt key.number
        { kind := .key, start := key.mark, stop := key.mark }
      let scanner := (scanner.roll .blockMappingStart key.mark key.number).setKey none
      pure { scanner.addIndicator .value 1 with mayStartKey := false }
  | none =>
      scanner.checkMayStart "mapping values are not allowed in this context"
      let scanner := scanner.roll .blockMappingStart scanner.mark scanner.count
      pure { scanner.addIndicator .value 1 with mayStartKey := !scanner.inFlow }

/-- A token that a key may begin with and that no key may follow at once. -/
def fetchContent (scanner : Scanner)
    (scan : Cursor → Except Problem (TokenKind × Cursor)) : Except Problem Scanner := do
  let scanner ← scanner.saveKey
  let (kind, next) ← scan scanner.cursor
  pure
    { scanner.add { kind, start := scanner.mark, stop := next.mark } with
      cursor := next
      mayStartKey := false }

def fetchAnchor (scanner : Scanner) : Except Problem Scanner :=
  scanner.fetchContent fun cursor => do
    let (name, next) ← scanName "while scanning an anchor" cursor
    pure (.anchor name, next)

def fetchAlias (scanner : Scanner) : Except Problem Scanner :=
  scanner.fetchContent fun cursor => do
    let (name, next) ← scanName "while scanning an alias" cursor
    pure (.alias name, next)

/-- Adds the token of a scalar that has been scanned from the cursor on. -/
def addScalar (scanner : Scanner) (style : ScalarStyle) (scalar : ScannedScalar)
    (mayStartKey : Bool) : Scanner :=
  { scanner.add
      { kind := .scalar style (String.ofList scalar.content)
        start := scanner.mark
        stop := scalar.stop } with
    cursor := scalar.next
    mayStartKey }

def fetchQuoted (scanner : Scanner) (style : ScalarStyle) (quote : Char) (fuel : Nat) :
    Except Problem Scanner := do
  let scanner ← scanner.saveKey
  let scalar ← scanQuoted quote fuel scanner.cursor
  pure (scanner.addScalar style scalar false)

def fetchPlain (scanner : Scanner) (fuel : Nat) : Except Problem Scanner := do
  let scanner ← scanner.saveKey
  let scalar ← scanPlain scanner.contentColumn scanner.inFlow fuel scanner.cursor
  pure (scanner.addScalar .plain scalar scalar.endsOnNewLine)

def fetchBlockScalar (scanner : Scanner) (style : ScalarStyle) (fuel : Nat) :
    Except Problem Scanner := do
  let scanner ← scanner.dropKey
  let scalar ← scanBlockScalar (style = .literal) scanner.indent fuel scanner.cursor
  pure (scanner.addScalar style scalar true)

/-- The characters that no plain scalar begins with, unless a word goes on after
them. -/
def isIndicator (c : Char) : Bool :=
  c = '-' || c = '?' || c = ':' || c = ',' || c = '[' || c = ']' || c = '{' ||
    c = '}' || c = '#' || c = '&' || c = '*' || c = '!' || c = '|' || c = '>' ||
    c = '\'' || c = '"' || c = '%' || c = '@' || c = '`'

def beginsPlain (inFlow : Bool) (c : Char) (rest : List Char) : Bool :=
  !(isBlankOrBreak c || isIndicator c) ||
    (c = '-' && !endsWord rest) || (!inFlow && (c = '?' || c = ':') && !endsWord rest)

def fetchAt (scanner : Scanner) (fuel : Nat) (c : Char) (rest : List Char) :
    Except Problem Scanner :=
  if scanner.mark.column = 0 ∧ c = '%' then scanner.fetchDirective fuel
  else if scanner.cursor.seesTriple '-' then scanner.fetchDocumentMarker .documentStart
  else if scanner.cursor.seesTriple '.' then scanner.fetchDocumentMarker .documentEnd
  else if c = '[' then scanner.fetchFlowStart .flowSequenceStart
  else if c = '{' then scanner.fetchFlowStart .flowMappingStart
  else if c = ']' then scanner.fetchFlowEnd .flowSequenceEnd
  else if c = '}' then scanner.fetchFlowEnd .flowMappingEnd
  else if c = ',' then scanner.fetchFlowEntry
  else if c = '-' ∧ endsWord rest then scanner.fetchBlockEntry
  else if c = '?' ∧ (scanner.inFlow ∨ endsWord rest) then scanner.fetchKey
  else if c = ':' ∧ (scanner.inFlow ∨ endsWord rest) then scanner.fetchValue
  else if c = '*' then scanner.fetchAlias
  else if c = '&' then scanner.fetchAnchor
  else if c = '!' then scanner.fetchContent (scanTag scanner.inFlow fuel)
  else if c = '|' ∧ scanner.inFlow = false then scanner.fetchBlockScalar .literal fuel
  else if c = '>' ∧ scanner.inFlow = false then scanner.fetchBlockScalar .folded fuel
  else if c = '\'' then scanner.fetchQuoted .singleQuoted c fuel
  else if c = '"' then scanner.fetchQuoted .doubleQuoted c fuel
  else if beginsPlain scanner.inFlow c rest then scanner.fetchPlain fuel
  else
    .error (problemWhile "while scanning for the next token" scanner.mark
      "found character that cannot start any token" scanner.mark)

def fetch (scanner : Scanner) (fuel : Nat) : Except Problem Scanner := do
  let scanner ← (toNextToken (fuel + 1) scanner).dropStaleKeys
  let scanner := scanner.unroll scanner.mark.column
  match scanner.cursor.rest with
  | [] => scanner.fetchEnd
  | c :: rest => scanner.fetchAt fuel c rest

/-! ## The stream of tokens -/

def stopAt (scanner : Scanner) (problem : Problem) : TokenStream where
  tokens := scanner.tokens.reverse.take scanner.settled
  stop := some problem

def finish (scanner : Scanner) : TokenStream :=
  match scanner.settle with
  | .error problem => scanner.stopAt problem
  | .ok scanner => { tokens := scanner.tokens.reverse, stop := none }

/-- Fetches tokens up to the end.  Each takes a character, so fuel for as many
steps as there are characters, and one more for the end, is never used up. -/
def run : Nat → Scanner → TokenStream
  | 0, scanner => scanner.finish
  | fuel + 1, scanner =>
      match scanner.settle with
      | .error problem => scanner.stopAt problem
      | .ok scanner =>
          match scanner.fetch fuel with
          | .error problem => scanner.stopAt problem
          | .ok next => if next.isDone then next.finish else run fuel next

end Scanner

/-! ## The text -/

def isAllowed (c : Char) : Bool :=
  c = '\t' || c = '\n' || c = '\r' || (' ' ≤ c && c ≤ '~') || c.toNat = 0x85 ||
    (0xA0 ≤ c.toNat && c.toNat ≤ 0xFFFD) || 0x10000 ≤ c.toNat

/-- The number of bytes in front of the first character that is not allowed. -/
def firstForbidden? (bytes : Nat) : List Char → Option Nat
  | [] => none
  | c :: rest =>
      if isAllowed c then firstForbidden? (bytes + c.utf8Size) rest else some bytes

/-- A text without the byte order mark in front of it, and the bytes of that. -/
def withoutByteOrder : List Char → Nat × List Char
  | [] => (0, [])
  | c :: rest => if c = byteOrderMark then (3, rest) else (0, c :: rest)

/-- The tokens of a text.  A text with a character that is not allowed has none. -/
def scan (text : List Char) : TokenStream :=
  let (bytes, text) := withoutByteOrder text
  match firstForbidden? bytes text with
  | some position =>
      { tokens := []
        stop := some
          { what :=
              "control characters are not allowed" ++
                if position = 0 then "" else " at position " ++ toString position
            mark := {} } }
  | none =>
      Scanner.run (text.length + 2) { cursor := { mark := {}, rest := text } }

end ErrorTaxonomy.Yaml
