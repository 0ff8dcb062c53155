import ErrorTaxonomy.Yaml.Token

/-!
# Parsing YAML

The parser turns tokens into events, each of which begins or ends a document or
a collection or is a node without parts.  It is a machine with a stack of states,
one for each collection that is open; a step takes some tokens and gives one
event.  Values that are left out become empty scalars.

The parser stops at a token that cannot stand where it does, and where the tokens
themselves stop.
-/

namespace ErrorTaxonomy.Yaml

inductive EventKind where
  | streamEnd
  | documentStart
  | documentEnd
  | alias (name : String)
  | scalar (anchor tag : Option String) (style : ScalarStyle) (content : String)
  | sequenceStart (anchor : Option String)
  | sequenceEnd
  | mappingStart (anchor : Option String)
  | mappingEnd
  deriving DecidableEq

structure Event where
  kind : EventKind
  mark : Mark
  deriving DecidableEq

/-- What a document or a collection waits for.  The mark is that of its
beginning. -/
inductive ParserState where
  | stream (afterDocument : Bool)
  | documentContent
  | documentEnd
  | blockNode
  | blockEntry (start : Mark)
  | indentlessEntry
  | blockKey (start : Mark)
  | blockValue (start : Mark)
  | flowEntry (isFirst : Bool) (start : Mark)
  | flowPairKey (start : Mark)
  | flowPairValue (start : Mark)
  | flowPairEnd (start : Mark)
  | flowKey (isFirst : Bool) (start : Mark)
  | flowValue (isOmitted : Bool) (start : Mark)
  deriving DecidableEq

structure Parser where
  tokens : List Token
  stack : List ParserState := [.stream false]
  shorthands : List (String × String) := []

/-- Why there is no further event. -/
inductive ParserStop where
  | outOfTokens
  | finished
  | problem (problem : Problem)

abbrev ParserStep : Type :=
  Except ParserStop (Event × Parser)

namespace Parser

/-- The next token, or the stop if there is none. -/
def peek (parser : Parser) : Except ParserStop Token :=
  match parser.tokens with
  | token :: _ => .ok token
  | [] => .error .outOfTokens

def skip (parser : Parser) : Parser :=
  { parser with tokens := parser.tokens.drop 1 }

/-- Puts a state in place of the current one. -/
def become (parser : Parser) (state : ParserState) : Parser :=
  { parser with stack := state :: parser.stack.drop 1 }

def push (parser : Parser) (state : ParserState) : Parser :=
  { parser with stack := state :: parser.stack }

def pop (parser : Parser) : Parser :=
  { parser with stack := parser.stack.drop 1 }

def emit (parser : Parser) (kind : EventKind) (mark : Mark) : ParserStep :=
  .ok ({ kind, mark }, parser)

def fail (what : String) (mark : Mark) : Except ParserStop α :=
  .error (.problem { what, mark })

def failWhile (doing : String) (start : Mark) (what : String) (mark : Mark) :
    Except ParserStop α :=
  .error (.problem (problemWhile doing start what mark))

/-- An empty scalar in place of a value that is left out. -/
def emitEmpty (parser : Parser) (mark : Mark) : ParserStep :=
  parser.emit (.scalar none none .plain "") mark

/-! ## Nodes -/

/-- The shorthands that every document has. -/
def defaultShorthands : List (String × String) :=
  [("!", "!"), ("!!", "tag:yaml.org,2002:")]

/-- The anchor and the tag in front of a node.  The tag comes with its mark. -/
structure Properties where
  anchor : Option String := none
  tag : Option (String × String × Mark) := none
  start : Mark
  isPresent : Bool := false

/-- An anchor, a tag, or both in either order. -/
def properties (parser : Parser) : Except ParserStop (Properties × Parser) := do
  let first ← parser.peek
  match first.kind with
  | .anchor name =>
      let parser := parser.skip
      let second ← parser.peek
      match second.kind with
      | .tag handle suffix =>
          pure
            ({ anchor := some name
               tag := some (handle, suffix, second.start)
               start := first.start
               isPresent := true },
              parser.skip)
      | _ => pure ({ anchor := some name, start := first.start, isPresent := true }, parser)
  | .tag handle suffix =>
      let parser := parser.skip
      let second ← parser.peek
      let properties : Properties :=
        { tag := some (handle, suffix, first.start), start := first.start, isPresent := true }
      match second.kind with
      | .anchor name => pure ({ properties with anchor := some name }, parser.skip)
      | _ => pure (properties, parser)
  | _ => pure ({ start := first.start }, parser)

def resolveTag (parser : Parser) (properties : Properties) :
    Except ParserStop (Option String) :=
  match properties.tag with
  | none => .ok none
  | some (handle, suffix, mark) =>
      if handle = "" then .ok (some suffix)
      else
        match parser.shorthands.find? fun shorthand => shorthand.1 = handle with
        | some shorthand => .ok (some (shorthand.2 ++ suffix))
        | none =>
            failWhile "while parsing a node" properties.start "found undefined tag handle"
              mark

/-- A node, whose collection is parsed before the state on top of the stack.  In
some places a sequence may begin without indentation. -/
def parseNode (parser : Parser) (inBlock mayBeIndentless : Bool) : ParserStep := do
  let token ← parser.peek
  match token.kind with
  | .alias name => parser.skip.emit (.alias name) token.start
  | _ =>
      let (properties, parser) ← parser.properties
      let tag ← parser.resolveTag properties
      let token ← parser.peek
      let start := properties.start
      let anchor := properties.anchor
      match token.kind with
      | .scalar style content =>
          let tag := if tag = some "!" then none else tag
          parser.skip.emit (.scalar anchor tag style content) start
      | .flowSequenceStart =>
          (parser.skip.push (.flowEntry true token.start)).emit (.sequenceStart anchor) start
      | .flowMappingStart =>
          (parser.skip.push (.flowKey true token.start)).emit (.mappingStart anchor) start
      | kind =>
          if mayBeIndentless ∧ kind = .blockEntry then
            (parser.push .indentlessEntry).emit (.sequenceStart anchor) start
          else if inBlock ∧ kind = .blockSequenceStart then
            (parser.skip.push (.blockEntry token.start)).emit (.sequenceStart anchor) start
          else if inBlock ∧ kind = .blockMappingStart then
            (parser.skip.push (.blockKey token.start)).emit (.mappingStart anchor) start
          else if properties.isPresent then
            parser.emit (.scalar anchor tag .plain "") start
          else
            failWhile
              (if inBlock then "while parsing a block node" else "while parsing a flow node")
              start "did not find expected node content" token.start

/-! ## Documents -/

/-- The directives in front of a document: whether there was a version, and the
shorthands. -/
def parseDirectives : Bool → List (String × String) → List Token →
    Except ParserStop (List (String × String) × List Token)
  | _, _, [] => .error .outOfTokens
  | hasVersion, shorthands, token :: rest =>
      match token.kind with
      | .version major minor =>
          if hasVersion then fail "found duplicate %YAML directive" token.start
          else if major ≠ 1 ∨ (minor ≠ 1 ∧ minor ≠ 2) then
            fail "found incompatible YAML document" token.start
          else parseDirectives true shorthands rest
      | .tagShorthand handle expansion =>
          if shorthands.any fun shorthand => shorthand.1 = handle then
            fail "found duplicate %TAG directive" token.start
          else parseDirectives hasVersion (shorthands ++ [(handle, expansion)]) rest
      | _ => .ok (shorthands ++ defaultShorthands, token :: rest)

/-- The beginning of a document, or the end of the stream. -/
def parseStream (parser : Parser) (afterDocument : Bool) : ParserStep := do
  let parser :=
    if afterDocument then
      { parser with
        tokens := parser.tokens.dropWhile fun token => token.kind = .documentEnd }
    else parser
  let token ← parser.peek
  let isExplicit :=
    match token.kind with
    | .version _ _ => true
    | .tagShorthand _ _ => true
    | .documentStart => true
    | _ => afterDocument
  if token.kind = .streamEnd then
    ({ parser.skip with stack := [] } : Parser).emit .streamEnd token.start
  else if isExplicit then
    let (shorthands, tokens) ← parseDirectives false [] parser.tokens
    let parser := { parser with shorthands, tokens }
    let next ← parser.peek
    if next.kind = .documentStart then
      ((parser.skip.become .documentEnd).push .documentContent).emit .documentStart
        token.start
    else fail "did not find expected <document start>" next.start
  else
    let parser := { parser with shorthands := defaultShorthands }
    ((parser.become .documentEnd).push .blockNode).emit .documentStart token.start

/-- Whether a document ends at a token before it has any content. -/
def endsDocument : TokenKind → Bool
  | .version _ _ => true
  | .tagShorthand _ _ => true
  | .documentStart => true
  | .documentEnd => true
  | .streamEnd => true
  | _ => false

def parseDocumentContent (parser : Parser) : ParserStep := do
  let token ← parser.peek
  if endsDocument token.kind then parser.pop.emitEmpty token.start
  else parser.pop.parseNode true false

def parseDocumentEnd (parser : Parser) : ParserStep := do
  let token ← parser.peek
  let parser := if token.kind = .documentEnd then parser.skip else parser
  ({ parser.become (.stream true) with shorthands := [] } : Parser).emit .documentEnd
    token.start

/-! ## Block collections -/

def parseBlockEntry (parser : Parser) (start : Mark) : ParserStep := do
  let token ← parser.peek
  if token.kind = .blockEntry then
    let parser := parser.skip
    let next ← parser.peek
    if next.kind = .blockEntry ∨ next.kind = .blockEnd then parser.emitEmpty token.stop
    else parser.parseNode true false
  else if token.kind = .blockEnd then parser.skip.pop.emit .sequenceEnd token.start
  else
    failWhile "while parsing a block collection" start "did not find expected '-' indicator"
      token.start

/-- Whether a value is left out in front of a token of a block mapping. -/
def endsBlockValue (kind : TokenKind) : Bool :=
  kind = .key || kind = .value || kind = .blockEnd

def parseIndentlessEntry (parser : Parser) : ParserStep := do
  let token ← parser.peek
  if token.kind = .blockEntry then
    let parser := parser.skip
    let next ← parser.peek
    if next.kind = .blockEntry ∨ endsBlockValue next.kind then parser.emitEmpty token.stop
    else parser.parseNode true false
  else parser.pop.emit .sequenceEnd token.start

def parseBlockKey (parser : Parser) (start : Mark) : ParserStep := do
  let token ← parser.peek
  if token.kind = .key then
    let parser := parser.skip.become (.blockValue start)
    let next ← parser.peek
    if endsBlockValue next.kind then parser.emitEmpty token.stop
    else parser.parseNode true true
  else if token.kind = .blockEnd then parser.skip.pop.emit .mappingEnd token.start
  else
    failWhile "while parsing a block mapping" start "did not find expected key" token.start

def parseBlockValue (parser : Parser) (start : Mark) : ParserStep := do
  let token ← parser.peek
  let parser := parser.become (.blockKey start)
  if token.kind = .value then
    let parser := parser.skip
    let next ← parser.peek
    if endsBlockValue next.kind then parser.emitEmpty token.stop
    else parser.parseNode true true
  else parser.emitEmpty token.start

/-! ## Flow collections -/

/-- Past the comma in front of an item that is not the first. -/
def passComma (parser : Parser) (isFirst : Bool) (doing : String) (start : Mark)
    (what : String) : Except ParserStop Parser := do
  let token ← parser.peek
  if isFirst then pure parser
  else if token.kind = .flowEntry then pure parser.skip
  else failWhile doing start what token.start

def endFlow (parser : Parser) (kind : EventKind) : ParserStep := do
  let token ← parser.peek
  parser.skip.pop.emit kind token.start

/-- An item of a flow sequence; a key makes a mapping of one pair of it. -/
def parseFlowEntry (parser : Parser) (isFirst : Bool) (start : Mark) : ParserStep := do
  let token ← parser.peek
  if token.kind = .flowSequenceEnd then parser.endFlow .sequenceEnd
  else
    let parser ← parser.passComma isFirst "while parsing a flow sequence" start
      "did not find expected ',' or ']'"
    let token ← parser.peek
    if token.kind = .key then
      (parser.skip.become (.flowPairKey start)).emit (.mappingStart none) token.start
    else if token.kind = .flowSequenceEnd then parser.endFlow .sequenceEnd
    else (parser.become (.flowEntry false start)).parseNode false false

/-- The key of a pair.  If it is left out, the token in its place is passed. -/
def parseFlowPairKey (parser : Parser) (start : Mark) : ParserStep := do
  let token ← parser.peek
  let parser := parser.become (.flowPairValue start)
  if token.kind = .value ∨ token.kind = .flowEntry ∨ token.kind = .flowSequenceEnd then
    parser.skip.emitEmpty token.stop
  else parser.parseNode false false

def parseFlowPairValue (parser : Parser) (start : Mark) : ParserStep := do
  let token ← parser.peek
  let parser := parser.become (.flowPairEnd start)
  if token.kind = .value then
    let parser := parser.skip
    let next ← parser.peek
    if next.kind = .flowEntry ∨ next.kind = .flowSequenceEnd then
      parser.emitEmpty next.start
    else parser.parseNode false false
  else parser.emitEmpty token.start

def parseFlowPairEnd (parser : Parser) (start : Mark) : ParserStep := do
  let token ← parser.peek
  (parser.become (.flowEntry false start)).emit .mappingEnd token.start

/-- A key of a flow mapping, which need not be marked as one. -/
def parseFlowKey (parser : Parser) (isFirst : Bool) (start : Mark) : ParserStep := do
  let token ← parser.peek
  if token.kind = .flowMappingEnd then parser.endFlow .mappingEnd
  else
    let parser ← parser.passComma isFirst "while parsing a flow mapping" start
      "did not find expected ',' or '\x7d'"
    let token ← parser.peek
    if token.kind = .key then
      let parser := parser.skip.become (.flowValue false start)
      let next ← parser.peek
      if next.kind = .value ∨ next.kind = .flowEntry ∨ next.kind = .flowMappingEnd then
        parser.emitEmpty next.start
      else parser.parseNode false false
    else if token.kind = .flowMappingEnd then parser.endFlow .mappingEnd
    else (parser.become (.flowValue true start)).parseNode false false

def parseFlowValue (parser : Parser) (isOmitted : Bool) (start : Mark) : ParserStep := do
  let token ← parser.peek
  let parser := parser.become (.flowKey false start)
  if isOmitted = false ∧ token.kind = .value then
    let parser := parser.skip
    let next ← parser.peek
    if next.kind = .flowEntry ∨ next.kind = .flowMappingEnd then
      parser.emitEmpty next.start
    else parser.parseNode false false
  else parser.emitEmpty token.start

/-! ## The machine -/

def step (parser : Parser) : ParserStep :=
  match parser.stack with
  | [] => .error .finished
  | .stream afterDocument :: _ => parser.parseStream afterDocument
  | .documentContent :: _ => parser.parseDocumentContent
  | .documentEnd :: _ => parser.parseDocumentEnd
  | .blockNode :: _ => parser.pop.parseNode true false
  | .blockEntry start :: _ => parser.parseBlockEntry start
  | .indentlessEntry :: _ => parser.parseIndentlessEntry
  | .blockKey start :: _ => parser.parseBlockKey start
  | .blockValue start :: _ => parser.parseBlockValue start
  | .flowEntry isFirst start :: _ => parser.parseFlowEntry isFirst start
  | .flowPairKey start :: _ => parser.parseFlowPairKey start
  | .flowPairValue start :: _ => parser.parseFlowPairValue start
  | .flowPairEnd start :: _ => parser.parseFlowPairEnd start
  | .flowKey isFirst start :: _ => parser.parseFlowKey isFirst start
  | .flowValue isOmitted start :: _ => parser.parseFlowValue isOmitted start

end Parser

/-- What comes after the events of the first document: nothing, something else,
or a stop on the way. -/
inductive Ending where
  | alone
  | followed
  | stopped (stop : ParserStop)

namespace Parser

def ending (parser : Parser) : Ending :=
  match parser.step with
  | .ok (event, _) => if event.kind = .streamEnd then .alone else .followed
  | .error _ => .followed

/-- The events within the first document.  Three steps at most are taken without
a token, so fuel for four steps a token is never used up. -/
def firstDocument : Nat → Parser → List Event × Ending
  | 0, _ => ([], .stopped .outOfTokens)
  | fuel + 1, parser =>
      match parser.step with
      | .error stop => ([], .stopped stop)
      | .ok (event, parser) =>
          match event.kind with
          | .streamEnd => ([], .alone)
          | .documentEnd => ([], parser.ending)
          | .documentStart => firstDocument fuel parser
          | _ =>
              let (events, ending) := firstDocument fuel parser
              (event :: events, ending)

end Parser

/-- The events of the first document of a token stream. -/
def parseEvents (tokens : List Token) : List Event × Ending :=
  Parser.firstDocument (4 * tokens.length + 8) { tokens }

end ErrorTaxonomy.Yaml
