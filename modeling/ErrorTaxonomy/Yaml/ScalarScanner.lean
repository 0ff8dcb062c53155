import ErrorTaxonomy.Yaml.Token

/-!
# Scanning scalars

The five styles in which a scalar is written.  Within a scalar that goes over
several lines, line breaks are folded: one break becomes a blank, and of several
the first one is dropped.  Every scan here has fuel for as many steps as there
are characters left.
-/

namespace ErrorTaxonomy.Yaml

/-- What lies between two words of a scalar: blanks, or line breaks with the
blanks around them forgotten. -/
structure Gap where
  blanks : List Char := []
  firstBreak : List Char := []
  furtherBreaks : List Char := []
  isBroken : Bool := false

namespace Gap

def addBreak (gap : Gap) (c : Char) : Gap :=
  if gap.isBroken then { gap with furtherBreaks := gap.furtherBreaks ++ [c] }
  else { gap with blanks := [], firstBreak := [c], isBroken := true }

def addBlank (gap : Gap) (c : Char) : Gap :=
  if gap.isBroken then gap else { gap with blanks := gap.blanks ++ [c] }

def text (gap : Gap) : List Char :=
  if gap.isBroken then
    if gap.firstBreak = ['\n'] then
      if gap.furtherBreaks = [] then [' '] else gap.furtherBreaks
    else gap.firstBreak ++ gap.furtherBreaks
  else gap.blanks

end Gap

/-- Extends a gap by all blanks and breaks that follow.  On a new line, a tab in
front of the given column fails with its mark. -/
def scanGap (indent : Nat) : Nat → Gap → Cursor → Except Mark (Gap × Cursor)
  | 0, gap, cursor => .ok (gap, cursor)
  | fuel + 1, gap, cursor =>
      match cursor.pastBreak? with
      | some (c, next) => scanGap indent fuel (gap.addBreak c) next
      | none =>
          match cursor.rest with
          | [] => .ok (gap, cursor)
          | c :: rest =>
              if isBlank c then
                if gap.isBroken ∧ c = '\t' ∧ cursor.mark.column < indent then
                  .error cursor.mark
                else scanGap indent fuel (gap.addBlank c) (cursor.forward 1 rest)
              else .ok (gap, cursor)

structure ScannedScalar where
  content : List Char
  stop : Mark
  next : Cursor
  /-- Whether the scalar ended on a line before that of `next`. -/
  endsOnNewLine : Bool := false

/-! ## Plain scalars -/

/-- The characters that stand for structure within a flow collection. -/
def isFlowIndicator (c : Char) : Bool :=
  c = ',' || c = '[' || c = ']' || c = '{' || c = '}'

/-- Whether a colon is followed by a character that makes it ambiguous. -/
def hasAmbiguousColon : List Char → Bool
  | ':' :: c :: _ => isFlowIndicator c || c = '?'
  | _ => false

def endsPlainWord (inFlow : Bool) (c : Char) (rest : List Char) : Bool :=
  isBlankOrBreak c || (c = ':' && endsWord rest) ||
    (inFlow && (isFlowIndicator c || hasAmbiguousColon (c :: rest)))

def plainWord (inFlow : Bool) : List Char → List Char × List Char
  | [] => ([], [])
  | c :: rest =>
      if endsPlainWord inFlow c rest then ([], c :: rest)
      else
        let (word, after) := plainWord inFlow rest
        (c :: word, after)

/-- A plain scalar from its first word on.  It ends before a comment, a document
marker, an indicator, or a line that is indented less than given. -/
def scanPlainWords (indent : Nat) (inFlow : Bool) (start : Mark) :
    Nat → List Char → Gap → Mark → Cursor → Except Problem ScannedScalar
  | 0, content, gap, stop, next =>
      .ok { content, stop, next, endsOnNewLine := gap.isBroken }
  | fuel + 1, content, gap, stop, cursor =>
      if cursor.seesDocumentMarker || cursor.sees '#' then
        .ok { content, stop, next := cursor, endsOnNewLine := gap.isBroken }
      else
        let (word, rest) := plainWord inFlow cursor.rest
        let next := cursor.forward word.length rest
        if inFlow ∧ hasAmbiguousColon rest then
          .error (problemWhile "while scanning a plain scalar" start
            "found unexpected ':'" next.mark)
        else
          let (content, gap, stop) :=
            if word = [] then (content, gap, stop)
            else (content ++ gap.text ++ word, {}, next.mark)
          match rest with
          | [] => .ok { content, stop, next, endsOnNewLine := gap.isBroken }
          | c :: _ =>
              if isBlankOrBreak c then
                match scanGap indent fuel gap next with
                | .error mark =>
                    .error (problemWhile "while scanning a plain scalar" start
                      "found a tab character that violates indentation" mark)
                | .ok (gap, next) =>
                    if !inFlow ∧ next.mark.column < indent then
                      .ok { content, stop, next, endsOnNewLine := gap.isBroken }
                    else scanPlainWords indent inFlow start fuel content gap stop next
              else .ok { content, stop, next, endsOnNewLine := gap.isBroken }

/-- A plain scalar in a collection whose items are indented to a column. -/
def scanPlain (indent : Nat) (inFlow : Bool) (fuel : Nat) (cursor : Cursor) :
    Except Problem ScannedScalar :=
  scanPlainWords indent inFlow cursor.mark fuel [] {} cursor.mark cursor

/-! ## Quoted scalars -/

inductive Escape where
  | character (c : Char)
  | numbered (digits : Nat)

def escape? (c : Char) : Option Escape :=
  match c with
  | '0' => some (.character (Char.ofNat 0))
  | 'a' => some (.character (Char.ofNat 7))
  | 'b' => some (.character (Char.ofNat 8))
  | 't' => some (.character '\t')
  | '\t' => some (.character '\t')
  | 'n' => some (.character '\n')
  | 'v' => some (.character (Char.ofNat 11))
  | 'f' => some (.character (Char.ofNat 12))
  | 'r' => some (.character '\r')
  | 'e' => some (.character (Char.ofNat 27))
  | ' ' => some (.character ' ')
  | '"' => some (.character '"')
  | '/' => some (.character '/')
  | '\\' => some (.character '\\')
  | 'N' => some (.character (Char.ofNat 0x85))
  | '_' => some (.character (Char.ofNat 0xA0))
  | 'L' => some (.character (Char.ofNat 0x2028))
  | 'P' => some (.character (Char.ofNat 0x2029))
  | 'x' => some (.numbered 2)
  | 'u' => some (.numbered 4)
  | 'U' => some (.numbered 8)
  | _ => none

/-- The number that as many hexadecimal digits give, and the text after them. -/
def hexNumber? : Nat → Nat → List Char → Option (Nat × List Char)
  | 0, value, rest => some (value, rest)
  | _ + 1, _, [] => none
  | digits + 1, value, c :: rest =>
      match hexValue? c with
      | some digit => hexNumber? digits (value * 16 + digit) rest
      | none => none

/-- Whether a number is that of a character, surrogates being none. -/
def isCharacterNumber (value : Nat) : Bool :=
  value < 0xD800 || (0xDFFF < value && value ≤ 0x10FFFF)

def scanEscape (start : Mark) (cursor : Cursor) : Except Problem (Char × Cursor) :=
  let problem := problemWhile "while parsing a quoted scalar" start
  match cursor.rest with
  | _ :: c :: rest =>
      let next := cursor.forward 2 rest
      match escape? c with
      | none => .error (problem "found unknown escape character" cursor.mark)
      | some (.character c) => .ok (c, next)
      | some (.numbered digits) =>
          match hexNumber? digits 0 rest with
          | none =>
              .error (problem "did not find expected hexadecimal number" next.mark)
          | some (value, rest) =>
              if isCharacterNumber value then
                .ok (Char.ofNat value, next.forward digits rest)
              else
                .error (problem "found invalid Unicode character escape code" next.mark)
  | _ => .error (problem "found unknown escape character" cursor.mark)

/-- A word of a quoted scalar, up to a blank, a break or the closing quote.  An
escaped line break ends it too, and is passed. -/
structure QuotedWord where
  characters : List Char
  escapesBreak : Bool
  next : Cursor

def QuotedWord.cons (c : Char) (word : QuotedWord) : QuotedWord :=
  { word with characters := c :: word.characters }

def scanSingleQuotedWord : Nat → Cursor → QuotedWord
  | 0, next => { characters := [], escapesBreak := false, next }
  | fuel + 1, cursor =>
      match cursor.rest with
      | [] => { characters := [], escapesBreak := false, next := cursor }
      | c :: rest =>
          if isBlankOrBreak c then
            { characters := [], escapesBreak := false, next := cursor }
          else if c = '\'' then
            match rest with
            | '\'' :: rest => (scanSingleQuotedWord fuel (cursor.forward 2 rest)).cons c
            | _ => { characters := [], escapesBreak := false, next := cursor }
          else (scanSingleQuotedWord fuel (cursor.forward 1 rest)).cons c

def scanDoubleQuotedWord (start : Mark) : Nat → Cursor → Except Problem QuotedWord
  | 0, next => .ok { characters := [], escapesBreak := false, next }
  | fuel + 1, cursor =>
      match cursor.rest with
      | [] => .ok { characters := [], escapesBreak := false, next := cursor }
      | c :: rest =>
          if isBlankOrBreak c ∨ c = '"' then
            .ok { characters := [], escapesBreak := false, next := cursor }
          else if c = '\\' then
            match (cursor.forward 1 rest).pastBreak? with
            | some (_, next) => .ok { characters := [], escapesBreak := true, next }
            | none => do
                let (character, next) ← scanEscape start cursor
                let word ← scanDoubleQuotedWord start fuel next
                pure (word.cons character)
          else do
            let word ← scanDoubleQuotedWord start fuel (cursor.forward 1 rest)
            pure (word.cons c)

def scanQuotedWord (quote : Char) (start : Mark) (fuel : Nat) (cursor : Cursor) :
    Except Problem QuotedWord :=
  if quote = '"' then scanDoubleQuotedWord start fuel cursor
  else .ok (scanSingleQuotedWord fuel cursor)

/-- The words of a quoted scalar, up to and past the closing quote. -/
def scanQuotedWords (quote : Char) (start : Mark) :
    Nat → List Char → Cursor → Except Problem (List Char × Cursor)
  | 0, content, cursor => .ok (content, cursor)
  | fuel + 1, content, cursor =>
      let problem := problemWhile "while scanning a quoted scalar" start
      if cursor.seesDocumentMarker then
        .error (problem "found unexpected document indicator" cursor.mark)
      else if cursor.rest = [] then
        .error (problem "found unexpected end of stream" cursor.mark)
      else do
        let word ← scanQuotedWord quote start fuel cursor
        let content := content ++ word.characters
        match word.next.rest with
        | c :: rest =>
            if c = quote then pure (content, word.next.forward 1 rest)
            else
              match scanGap 0 fuel { isBroken := word.escapesBreak } word.next with
              | .ok (gap, next) =>
                  scanQuotedWords quote start fuel (content ++ gap.text) next
              | .error _ => pure (content, word.next)
        | [] =>
            scanQuotedWords quote start fuel content word.next

def scanQuoted (quote : Char) (fuel : Nat) (cursor : Cursor) :
    Except Problem ScannedScalar := do
  let opened := cursor.forward 1 (cursor.rest.drop 1)
  let (content, next) ← scanQuotedWords quote cursor.mark fuel [] opened
  pure { content, stop := next.mark, next }

/-! ## Block scalars -/

inductive Chomping where
  | clip
  | strip
  | keep
  deriving DecidableEq

/-- The header of a block scalar.  The indentation is zero if it is not given. -/
structure BlockHeader where
  chomping : Chomping
  indentation : Nat
  next : Cursor

/-- A chomping indicator, if there is one. -/
def scanChomping (cursor : Cursor) : Option (Chomping × Cursor) :=
  match cursor.rest with
  | '+' :: rest => some (.keep, cursor.forward 1 rest)
  | '-' :: rest => some (.strip, cursor.forward 1 rest)
  | _ => none

/-- An indentation indicator, or zero if there is none. -/
def scanIndentation (start : Mark) (cursor : Cursor) : Except Problem (Nat × Cursor) :=
  match cursor.rest with
  | c :: rest =>
      if c = '0' then
        .error (problemWhile "while scanning a block scalar" start
          "found an indentation indicator equal to 0" cursor.mark)
      else if c.isDigit then .ok (c.toNat - 48, cursor.forward 1 rest)
      else .ok (0, cursor)
  | [] => .ok (0, cursor)

/-- The two indicators, in either order. -/
def scanBlockHeader (start : Mark) (cursor : Cursor) : Except Problem BlockHeader := do
  match scanChomping cursor with
  | some (chomping, cursor) =>
      let (indentation, next) ← scanIndentation start cursor
      pure { chomping, indentation, next }
  | none =>
      let (indentation, cursor) ← scanIndentation start cursor
      match if indentation = 0 then none else scanChomping cursor with
      | some (chomping, next) => pure { chomping, indentation, next }
      | none => pure { chomping := .clip, indentation, next := cursor }

/-- Empty lines of a block scalar: their breaks, the end of the last of them, and
the widest indentation met. -/
structure EmptyLines where
  breaks : List Char
  stop : Mark
  widest : Nat
  next : Cursor

/-- Passes indentation and empty lines.  An indentation of zero is not known
yet, so all blanks are passed. -/
def scanEmptyLines (indent : Nat) (start : Mark) :
    Nat → List Char → Mark → Nat → Cursor → Except Problem EmptyLines
  | 0, breaks, stop, widest, next => .ok { breaks, stop, widest, next }
  | fuel + 1, breaks, stop, widest, cursor =>
      let blanks := (cursor.rest.takeWhile (· = ' ')).length
      let passed := if indent = 0 then blanks else min blanks (indent - cursor.mark.column)
      let next := cursor.forward passed (cursor.rest.drop passed)
      let widest := max widest next.mark.column
      if (indent = 0 ∨ next.mark.column < indent) ∧ next.sees '\t' then
        .error (problemWhile "while scanning a block scalar" start
          "found a tab character where an indentation space is expected" next.mark)
      else
        match next.pastBreak? with
        | some (c, next) =>
            scanEmptyLines indent start fuel (breaks ++ [c]) next.mark widest next
        | none => .ok { breaks, stop, widest, next }

structure BlockLines where
  content : List Char := []
  lastBreak : List Char := []
  endsInBlank : Bool := false
  empty : EmptyLines

/-- What joins a line to the one before it. -/
def joinLines (literal : Bool) (lines : BlockLines) (beginsWithBlank : Bool) : List Char :=
  let isFolded :=
    !literal && lines.lastBreak == ['\n'] && !lines.endsInBlank && !beginsWithBlank
  (if isFolded then if lines.empty.breaks = [] then [' '] else [] else lines.lastBreak) ++
    lines.empty.breaks

/-- The lines at an indentation, each with the empty lines after it. -/
def scanBlockLines (literal : Bool) (indent : Nat) (start : Mark) :
    Nat → BlockLines → Except Problem BlockLines
  | 0, lines => .ok lines
  | fuel + 1, lines =>
      let cursor := lines.empty.next
      match cursor.rest with
      | [] => .ok lines
      | c :: _ =>
          if cursor.mark.column = indent then do
            let (line, next) := cursor.span fun c => !isBreak c
            let (lastBreak, next) :=
              match next.pastBreak? with
              | some (c, next) => ([c], next)
              | none => ([], next)
            let empty ← scanEmptyLines indent start fuel [] next.mark 0 next
            scanBlockLines literal indent start fuel
              { content := lines.content ++ joinLines literal lines (isBlank c) ++ line
                lastBreak
                endsInBlank := isBlank c
                empty }
          else .ok lines

def chomped (chomping : Chomping) (lines : BlockLines) : List Char :=
  match chomping with
  | .strip => lines.content
  | .clip => lines.content ++ lines.lastBreak
  | .keep => lines.content ++ lines.lastBreak ++ lines.empty.breaks

/-- The column of the lines of a block scalar, known from its header or from the
empty lines in front of it. -/
def blockIndent (outer : Int) (given : Nat) (empty : EmptyLines) : Nat :=
  if given ≠ 0 then given else max (max empty.widest (outer + 1).toNat) 1

/-- A block scalar, from its indicator on, in a collection of the given column. -/
def scanBlockScalar (literal : Bool) (outer : Int) (fuel : Nat) (cursor : Cursor) :
    Except Problem ScannedScalar := do
  let start := cursor.mark
  let header ← scanBlockHeader start (cursor.forward 1 (cursor.rest.drop 1))
  let next := header.next.pastComment
  if next.rest ≠ [] ∧ next.pastBreak?.isNone then
    throw (problemWhile "while scanning a block scalar" start
      "did not find expected comment or line break" next.mark)
  let next := next.pastBreak
  let given :=
    if header.indentation = 0 then 0
    else if 0 ≤ outer then outer.toNat + header.indentation
    else header.indentation
  let empty ← scanEmptyLines given start fuel [] next.mark 0 next
  let lines ←
    scanBlockLines literal (blockIndent outer given empty) start fuel { empty }
  pure
    { content := chomped header.chomping lines
      stop := lines.empty.stop
      next := lines.empty.next }

end ErrorTaxonomy.Yaml
