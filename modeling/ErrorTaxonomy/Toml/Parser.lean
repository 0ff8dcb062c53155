import ErrorTaxonomy.Toml.Value

/-!
# Parsing TOML

A text is read statement by statement.  A header says to which table the keys
after it belong; a key may have several parts, each of which names a table within
the one before.  No value may be given twice, and a table that is complete, such
as one written in braces, may not be added to.
-/

namespace ErrorTaxonomy.Toml

def isBlank (c : Char) : Bool :=
  c = ' ' || c = '\t'

def skipBlank (text : List Char) : List Char :=
  text.dropWhile isBlank

/-- A failure of the first character that is left, if there is one. -/
def failAt {α : Type} (what : String) (text : List Char) : Except Failure α :=
  .error { what, span := { start := text, stop := text.drop 1 } }

def isControl (c : Char) : Bool :=
  (c.toNat < 32 && c != '\t') || c.toNat = 127

/-- Past the characters of a comment, which are no control characters. -/
def skipComment (text : List Char) : List Char :=
  text.dropWhile fun c => !isControl c

def skipLines : Nat → List Char → List Char
  | 0, text => text
  | fuel + 1, text =>
      match skipBlank text with
      | '#' :: rest => skipLines fuel (skipComment rest)
      | '\n' :: rest => skipLines fuel rest
      | '\r' :: '\n' :: rest => skipLines fuel rest
      | rest => rest

/-! ## Strings -/

def hexValue? (c : Char) : Option Nat :=
  if '0' ≤ c ∧ c ≤ '9' then some (c.toNat - 48)
  else if 'a' ≤ c ∧ c ≤ 'f' then some (c.toNat - 87)
  else if 'A' ≤ c ∧ c ≤ 'F' then some (c.toNat - 55)
  else none

/-- The character that as many hexadecimal digits name. -/
def numberedChar : Nat → Nat → List Char → Option (Char × List Char)
  | 0, value, rest =>
      if value < 0xD800 ∨ (0xDFFF < value ∧ value ≤ 0x10FFFF) then
        some (Char.ofNat value, rest)
      else none
  | _ + 1, _, [] => none
  | digits + 1, value, c :: rest =>
      match hexValue? c with
      | some digit => numberedChar digits (value * 16 + digit) rest
      | none => none

def escape? : List Char → Option (Char × List Char)
  | 'b' :: rest => some (Char.ofNat 8, rest)
  | 't' :: rest => some ('\t', rest)
  | 'n' :: rest => some ('\n', rest)
  | 'f' :: rest => some (Char.ofNat 12, rest)
  | 'r' :: rest => some ('\r', rest)
  | 'e' :: rest => some (Char.ofNat 27, rest)
  | '"' :: rest => some ('"', rest)
  | '\\' :: rest => some ('\\', rest)
  | 'x' :: rest => numberedChar 2 0 rest
  | 'u' :: rest => numberedChar 4 0 rest
  | 'U' :: rest => numberedChar 8 0 rest
  | _ => none

def beginsNewLine (text : List Char) : Bool :=
  match skipBlank text with
  | '\n' :: _ => true
  | '\r' :: '\n' :: _ => true
  | _ => false

/-- Past all white space. -/
def skipWhiteSpace (text : List Char) : List Char :=
  text.dropWhile fun c => c = ' ' || c = '\t' || c = '\n' || c = '\r'

/-- The characters of a string on one line, up to and past its quote. -/
def parseLine (quote : Char) : Nat → List Char → Except Failure (List Char × List Char)
  | 0, text => failAt "invalid string" text
  | _ + 1, [] => failAt "invalid string" []
  | fuel + 1, c :: rest =>
      if c = quote then .ok ([], rest)
      else if c = '\\' ∧ quote = '"' then
        match escape? rest with
        | some (character, rest) => do
            let (more, rest) ← parseLine quote fuel rest
            pure (character :: more, rest)
        | none => failAt "invalid escape sequence" rest
      else if isControl c then failAt "invalid string" (c :: rest)
      else do
        let (more, rest) ← parseLine quote fuel rest
        pure (c :: more, rest)

/-- The characters of a string over several lines, up to and past its three
quotes; up to two quotes more in front of these belong to the string. -/
def parseLines (quote : Char) : Nat → List Char → Except Failure (List Char × List Char)
  | 0, text => failAt "invalid multi-line string" text
  | _ + 1, [] => failAt "invalid multi-line string" []
  | fuel + 1, c :: rest =>
      if c = quote then
        let quotes := rest.takeWhile (· = quote)
        if quotes.length < 2 then do
          let (more, rest) ← parseLines quote fuel rest
          pure (c :: more, rest)
        else
          let extra := min (quotes.length - 2) 2
          .ok (List.replicate extra quote, rest.drop (2 + extra))
      else if c = '\\' ∧ quote = '"' then
        if beginsNewLine rest then parseLines quote fuel (skipWhiteSpace rest)
        else
          match escape? rest with
          | some (character, rest) => do
              let (more, rest) ← parseLines quote fuel rest
              pure (character :: more, rest)
          | none => failAt "invalid escape sequence" rest
      else if c = '\r' ∧ rest.head? = some '\n' then parseLines quote fuel rest
      else if isControl c ∧ c ≠ '\n' then failAt "invalid multi-line string" (c :: rest)
      else do
        let (more, rest) ← parseLines quote fuel rest
        pure (c :: more, rest)

def skipFirstBreak : List Char → List Char
  | '\n' :: rest => rest
  | '\r' :: '\n' :: rest => rest
  | text => text

def parseString (quote : Char) (text : List Char) : Except Failure (String × List Char) := do
  match text with
  | a :: b :: rest =>
      if a = quote ∧ b = quote then
        let (content, rest) ← parseLines quote (rest.length + 1) (skipFirstBreak rest)
        pure (String.ofList content, rest)
      else if a = quote then pure ("", b :: rest)
      else
        let (content, rest) ← parseLine quote (text.length + 1) text
        pure (String.ofList content, rest)
  | _ =>
      let (content, rest) ← parseLine quote (text.length + 1) text
      pure (String.ofList content, rest)

/-! ## Keys -/

structure Key where
  name : String
  span : Span

def isBareChar (c : Char) : Bool :=
  c.isAlphanum || c = '-' || c = '_'

/-- One part of a key. -/
def parsePart (text : List Char) : Except Failure (Key × List Char) := do
  match text with
  | '"' :: rest =>
      let (content, rest) ← parseLine '"' (rest.length + 1) rest
      pure ({ name := String.ofList content, span := { start := text, stop := rest } }, rest)
  | '\'' :: rest =>
      let (content, rest) ← parseLine '\'' (rest.length + 1) rest
      pure ({ name := String.ofList content, span := { start := text, stop := rest } }, rest)
  | _ =>
      let name := text.takeWhile isBareChar
      let rest := text.dropWhile isBareChar
      if name = [] then
        failAt "unquoted keys cannot be empty, expected letters, numbers, `-`, `_`" text
      else pure ({ name := String.ofList name, span := { start := text, stop := rest } }, rest)

/-- The parts of a key, at least one. -/
def parseKey : Nat → List Char → Except Failure (List Key × List Char)
  | 0, text => failAt "unquoted keys cannot be empty, expected letters, numbers, `-`, `_`" text
  | fuel + 1, text => do
      let (part, rest) ← parsePart (skipBlank text)
      match skipBlank rest with
      | '.' :: rest =>
          let (parts, rest) ← parseKey fuel rest
          pure (part :: parts, rest)
      | rest => pure ([part], rest)

/-! ## Tables -/

def duplicate {α : Type} (key : Key) : Except Failure α :=
  .error { what := "duplicate key", span := key.span }

def setEntry (name : String) (value : Value) (entries : List (String × Value)) :
    List (String × Value) :=
  if entries.any fun entry => entry.1 = name then
    entries.map fun entry => if entry.1 = name then (name, value) else entry
  else entries ++ [(name, value)]

def entry? (name : String) (entries : List (String × Value)) : Option Value :=
  (entries.find? fun entry => entry.1 = name).map Prod.snd

def addValue (value : Value) :
    List Key → List (String × Value) → Except Failure (List (String × Value))
  | [], entries => .ok entries
  | [key], entries =>
      match entry? key.name entries with
      | some _ => duplicate key
      | none => .ok (entries ++ [(key.name, value)])
  | key :: next :: keys, entries =>
      match entry? key.name entries with
      | none => do
          let inner ← addValue value (next :: keys) []
          pure (entries ++ [(key.name, .table .dotted inner key.span)])
      | some (.table .dotted inner span) => do
          let inner ← addValue value (next :: keys) inner
          pure (setEntry key.name (.table .dotted inner span) entries)
      | some _ => duplicate key

/-- Changes the table that a header of several parts names.  Tables on the way
are made if they are not there, and of several tables the last is meant. -/
def changeTable (change : List (String × Value) → Except Failure (List (String × Value))) :
    List Key → List (String × Value) → Except Failure (List (String × Value))
  | [], entries => change entries
  | key :: keys, entries =>
      match entry? key.name entries with
      | none => do
          let inner ← changeTable change keys []
          pure (entries ++ [(key.name, .table .implied inner key.span)])
      | some (.table .inline _ _) => duplicate key
      | some (.table origin inner span) => do
          let inner ← changeTable change keys inner
          pure (setEntry key.name (.table origin inner span) entries)
      | some (.tables items span) =>
          match items.getLast? with
          | some (.table origin inner innerSpan) => do
              let inner ← changeTable change keys inner
              pure
                (setEntry key.name
                  (.tables (items.dropLast ++ [.table origin inner innerSpan]) span) entries)
          | _ => duplicate key
      | some _ => duplicate key

def openTable (key : Key) (span : Span) (entries : List (String × Value)) :
    Except Failure (List (String × Value)) :=
  match entry? key.name entries with
  | none => .ok (entries ++ [(key.name, .table .header [] span)])
  | some (.table .implied inner _) =>
      .ok (setEntry key.name (.table .header inner span) entries)
  | some _ => duplicate key

def openTables (key : Key) (span : Span) (entries : List (String × Value)) :
    Except Failure (List (String × Value)) :=
  match entry? key.name entries with
  | none => .ok (entries ++ [(key.name, .tables [.table .header [] span] span)])
  | some (.tables items arraySpan) =>
      .ok (setEntry key.name (.tables (items ++ [.table .header [] span]) arraySpan) entries)
  | some _ => duplicate key

/-! ## Values -/

def natural? (base : Nat) (digits : List Char) : Option Nat :=
  if digits = [] then none
  else
    digits.foldl
      (fun value c => do
        let value ← value
        let digit ← hexValue? c
        if digit < base then pure (value * base + digit) else none)
      (some 0)

/-- Digits without the underscores between them. -/
def plainDigits? (text : List Char) : Option (List Char) :=
  let isMisplaced :=
    text.head? = some '_' || text.getLast? = some '_' ||
      (text.zip (text.drop 1)).any fun pair => pair.1 = '_' && pair.2 = '_'
  if isMisplaced then none else some (text.filter (· ≠ '_'))

def splitSign : List Char → Bool × List Char
  | '-' :: rest => (true, rest)
  | '+' :: rest => (false, rest)
  | text => (false, text)

/-- Whether a number has a zero in front that does not count. -/
def isPadded : List Char → Bool
  | '0' :: c :: _ => c.isDigit || c = '_'
  | _ => false

/-- An integer of 64 bits, in any base. -/
def integer? (text : List Char) : Option Int := do
  let (isNegative, rest) := splitSign text
  let value ←
    match text, rest with
    | '0' :: 'x' :: digits, _ => plainDigits? digits >>= natural? 16
    | '0' :: 'o' :: digits, _ => plainDigits? digits >>= natural? 8
    | '0' :: 'b' :: digits, _ => plainDigits? digits >>= natural? 2
    | _, digits => if isPadded digits then none else plainDigits? digits >>= natural? 10
  let value : Int := if isNegative then -value else value
  let limit : Int := Nat.pow 2 63
  if -limit ≤ value ∧ value < limit then some value else none

/-- The exponent at the end of a number, if there is any text for it. -/
def exponent? : List Char → Option Int
  | [] => some 0
  | c :: rest => do
      if c = 'e' ∨ c = 'E' then
        let (isNegative, digits) := splitSign rest
        let value ← plainDigits? digits >>= natural? 10
        pure (if isNegative then -value else value)
      else none

/-- A number with a point, an exponent or both. -/
def decimal? (text : List Char) : Option Binary64 := do
  let (isNegative, rest) := splitSign text
  if rest = ['i', 'n', 'f'] then some (.infinite isNegative)
  else if rest = ['n', 'a', 'n'] then some .nan
  else
    let isPart := fun c : Char => c.isDigit || c = '_'
    let whole ← plainDigits? (rest.takeWhile isPart)
    let after := rest.dropWhile isPart
    if whole = [] ∨ isPadded rest then none
    else
      let (fraction, after) ←
        match after with
        | '.' :: after => do
            let fraction ← plainDigits? (after.takeWhile isPart)
            if fraction = [] then none else some (fraction, after.dropWhile isPart)
        | _ => some ([], after)
      let digits ← natural? 10 (whole ++ fraction)
      let exponent ← exponent? after
      let value := Binary64.ofDecimal isNegative digits (exponent - fraction.length)
      if value.isFinite then some value else none

/-! ### Dates and times -/

/-- A number of so many digits, and the text after it. -/
def fixedNumber? (count : Nat) (text : List Char) : Option (Nat × List Char) :=
  let digits := text.take count
  if digits.length = count ∧ digits.all Char.isDigit then
    (natural? 10 digits).map fun value => (value, text.drop count)
  else none

/-- The text after its first character, which has to be one of the given. -/
def afterOneOf? (allowed : List Char) : List Char → Option (List Char)
  | [] => none
  | c :: rest => if allowed.contains c then some rest else none

def daysInMonth (year month : Nat) : Nat :=
  if month = 2 then
    if year % 4 = 0 ∧ (year % 100 ≠ 0 ∨ year % 400 = 0) then 29 else 28
  else if [4, 6, 9, 11].contains month then 30
  else 31

/-- The text after a day of the calendar. -/
def afterDate? (text : List Char) : Option (List Char) := do
  let (year, rest) ← fixedNumber? 4 text
  let (month, rest) ← fixedNumber? 2 (← afterOneOf? ['-'] rest)
  let (day, rest) ← fixedNumber? 2 (← afterOneOf? ['-'] rest)
  if 1 ≤ month ∧ month ≤ 12 ∧ 1 ≤ day ∧ day ≤ daysInMonth year month then some rest
  else none

/-- The text after hours and minutes. -/
def afterMinutes? (text : List Char) : Option (List Char) := do
  let (hour, rest) ← fixedNumber? 2 text
  let (minute, rest) ← fixedNumber? 2 (← afterOneOf? [':'] rest)
  if hour < 24 ∧ minute < 60 then some rest else none

/-- The text after the decimals of a second, of which there is one at least. -/
def afterDecimals? (text : List Char) : Option (List Char) :=
  if text.head?.any Char.isDigit then some (text.dropWhile Char.isDigit) else none

/-- The text after a time of day.  Seconds may be left out; the last of a minute may be
a leap second. -/
def afterTime? (text : List Char) : Option (List Char) := do
  match ← afterMinutes? text with
  | ':' :: rest =>
      let (second, rest) ← fixedNumber? 2 rest
      if 60 < second then none
      else
        match rest with
        | '.' :: rest => afterDecimals? rest
        | rest => some rest
  | rest => some rest

/-- Whether a text is empty or an offset from universal time. -/
def isOffset : List Char → Bool
  | [] => true
  | ['Z'] => true
  | ['z'] => true
  | '+' :: rest => afterMinutes? rest = some []
  | '-' :: rest => afterMinutes? rest = some []
  | _ => false

/-- Whether a text is a date, a time of day or both; only both have an offset. -/
def isMoment (text : List Char) : Bool :=
  match afterDate? text with
  | none => afterTime? text = some []
  | some [] => true
  | some rest => (afterOneOf? ['T', 't', ' '] rest >>= afterTime?).any isOffset

/-- The characters of values that are neither quoted nor in brackets. -/
def isWordChar (c : Char) : Bool :=
  isBareChar c || c = '+' || c = '.' || c = ':'

/-- A value of one word. -/
def parseWord (text : List Char) : Except Failure (Value × List Char) :=
  let word := text.takeWhile isWordChar
  let rest := text.dropWhile isWordChar
  let (word, rest) :=
    match rest with
    | ' ' :: c :: more =>
        if isMoment word ∧ word.length = 10 ∧ c.isDigit then
          (word ++ ' ' :: (c :: more).takeWhile isWordChar, (c :: more).dropWhile isWordChar)
        else (word, rest)
    | _ => (word, rest)
  let span : Span := { start := text, stop := rest }
  if word = ['t', 'r', 'u', 'e'] then .ok (.boolean true span, rest)
  else if word = ['f', 'a', 'l', 's', 'e'] then .ok (.boolean false span, rest)
  else
    match integer? word with
    | some value => .ok (.integer value span, rest)
    | none =>
        match decimal? word with
        | some value => .ok (.decimal value span, rest)
        | none =>
            if isMoment word then .ok (.moment (String.ofList word) span, rest)
            else .error { what := "string values must be quoted, expected literal string", span }

def ValueParser : Type :=
  List Char → Except Failure (Value × List Char)

def parseItems (parseValue : ValueParser) :
    Nat → List Char → Except Failure (List Value × List Char)
  | 0, text => failAt "unclosed array, expected `]`" text
  | fuel + 1, text =>
      match skipLines (text.length + 1) text with
      | ']' :: rest => .ok ([], rest)
      | rest => do
          let (value, rest) ← parseValue rest
          match skipLines (rest.length + 1) rest with
          | ',' :: rest =>
              let (values, rest) ← parseItems parseValue fuel rest
              pure (value :: values, rest)
          | ']' :: rest => pure ([value], rest)
          | rest => failAt "unclosed array, expected `]`" rest

def parsePair (parseValue : ValueParser) (text : List Char) :
    Except Failure ((List Key × Value) × List Char) := do
  let (key, rest) ← parseKey (text.length + 1) text
  match rest with
  | '=' :: rest =>
      let (value, rest) ← parseValue (skipBlank rest)
      pure ((key, value), rest)
  | rest => failAt "key with no value, expected `=`" rest

/-- The pairs of a table in braces, of which the brace has been read. -/
def parsePairs (parseValue : ValueParser) :
    Nat → List (String × Value) → List Char →
      Except Failure (List (String × Value) × List Char)
  | 0, _, text => failAt "unclosed inline table, expected `\x7d`" text
  | fuel + 1, entries, text =>
      match skipLines (text.length + 1) text with
      | '}' :: rest => .ok (entries, rest)
      | rest => do
          let ((key, value), rest) ← parsePair parseValue rest
          let entries ← addValue value key entries
          match skipLines (rest.length + 1) rest with
          | ',' :: rest => parsePairs parseValue fuel entries rest
          | '}' :: rest => pure (entries, rest)
          | rest => failAt "unclosed inline table, expected `\x7d`" rest

/-- A value that is nested no deeper than the fuel. -/
def parseValue : Nat → ValueParser
  | 0 => fun text => failAt "cannot recurse further; max recursion depth met" text
  | fuel + 1 => fun text => do
      match text with
      | '"' :: rest =>
          let (content, rest) ← parseString '"' rest
          pure (.string content { start := text, stop := rest }, rest)
      | '\'' :: rest =>
          let (content, rest) ← parseString '\'' rest
          pure (.string content { start := text, stop := rest }, rest)
      | '[' :: rest =>
          let (items, rest) ← parseItems (parseValue fuel) (rest.length + 1) rest
          pure (.array items { start := text, stop := rest }, rest)
      | '{' :: rest =>
          let (entries, rest) ← parsePairs (parseValue fuel) (rest.length + 1) [] rest
          pure (.table .inline entries { start := text, stop := rest }, rest)
      | _ => parseWord text

/-! ## Statements -/

/-- The end of a statement: a comment, a line break or the end of the text. -/
def endStatement (text : List Char) : Except Failure (List Char) :=
  match skipBlank text with
  | [] => .ok []
  | '#' :: rest => .ok (skipComment rest)
  | '\n' :: rest => .ok rest
  | '\r' :: '\n' :: rest => .ok rest
  | rest => failAt "unexpected key or value, expected newline, `#`" rest

def nestingLimit : Nat :=
  80

/-- The tables so far, and the header under which further keys belong. -/
structure State where
  entries : List (String × Value) := []
  header : List Key := []

def openHeader (state : State) (keys : List Key)
    (openLast : Key → List (String × Value) → Except Failure (List (String × Value))) :
    Except Failure State :=
  match keys.getLast? with
  | none => .ok state
  | some key => do
      let entries ← changeTable (openLast key) keys.dropLast state.entries
      pure { entries, header := keys }

def parseStatement (state : State) (text : List Char) : Except Failure (State × List Char) := do
  match text with
  | '[' :: '[' :: rest =>
      let (keys, rest) ← parseKey (rest.length + 1) rest
      match rest with
      | ']' :: ']' :: rest =>
          let span : Span := { start := text, stop := rest }
          let state ← openHeader state keys fun key => openTables key span
          pure (state, rest)
      | rest => failAt "unclosed array table, expected `]]`" rest
  | '[' :: rest =>
      let (keys, rest) ← parseKey (rest.length + 1) rest
      match rest with
      | ']' :: rest =>
          let span : Span := { start := text, stop := rest }
          let state ← openHeader state keys fun key => openTable key span
          pure (state, rest)
      | rest => failAt "unclosed table, expected `]`" rest
  | _ =>
      let ((key, value), rest) ← parsePair (parseValue nestingLimit) text
      let entries ← changeTable (addValue value key) state.header state.entries
      pure ({ state with entries }, rest)

/-- The statements of a text, with fuel for one a character. -/
def parseStatements : Nat → State → List Char → Except Failure State
  | 0, state, _ => .ok state
  | fuel + 1, state, text =>
      match skipLines (text.length + 1) text with
      | [] => .ok state
      | rest => do
          let (state, rest) ← parseStatement state rest
          let rest ← endStatement rest
          parseStatements fuel state rest

def parse (text : List Char) : Except Failure Value := do
  let state ← parseStatements (text.length + 1) {} text
  pure (.table .header state.entries { start := text, stop := [] })

end ErrorTaxonomy.Toml
