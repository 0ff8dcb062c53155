import ErrorTaxonomy.Binary64
import ErrorTaxonomy.Json.Failure

/-!
# Scanning JSON

The scalars of JSON, each read off the front of a text.  What is read gives its
value and the text that is left.  Values of no interest are skipped, and then
less is asked of them: a skipped string may name half a character, and no number
is too large.
-/

namespace ErrorTaxonomy.Json

def Scan (α : Type) : Type :=
  List Char → Except Failure (α × List Char)

def isBlank (c : Char) : Bool :=
  c = ' ' || c = '\n' || c = '\t' || c = '\r'

def skipBlank (text : List Char) : List Char :=
  text.dropWhile isBlank

def isDigit (c : Char) : Bool :=
  '0' ≤ c && c ≤ '9'

def digitValue (c : Char) : Nat :=
  c.toNat - 48

/-- The rest of a literal whose first letter has been read. -/
def scanLiteral : List Char → List Char → Except Failure (List Char)
  | [], text => .ok text
  | _ :: _, [] => .error (.before .endInValue [])
  | expected :: more, c :: rest =>
      if c = expected then scanLiteral more rest
      else .error (.blaming .expectedIdentifier (c :: rest))

/-! ## Strings -/

def hexValue? (c : Char) : Option Nat :=
  if '0' ≤ c ∧ c ≤ '9' then some (c.toNat - 48)
  else if 'a' ≤ c ∧ c ≤ 'f' then some (c.toNat - 87)
  else if 'A' ≤ c ∧ c ≤ 'F' then some (c.toNat - 55)
  else none

def hexQuad? (a b c d : Char) : Option Nat := do
  let a ← hexValue? a
  let b ← hexValue? b
  let c ← hexValue? c
  let d ← hexValue? d
  pure (((a * 16 + b) * 16 + c) * 16 + d)

def scanHex (text : List Char) : Except Failure (Nat × List Char) :=
  match text with
  | a :: b :: c :: d :: rest =>
      match hexQuad? a b c d with
      | some value => .ok (value, rest)
      | none => .error { fault := .invalidEscape, rest := text, blamed := 4 }
  | _ =>
      if byteLength text < 4 then .error (.before .endInString [])
      else .error { fault := .invalidEscape, rest := text, blamed := 4 }

def isLeadingSurrogate (unit : Nat) : Bool :=
  0xD800 ≤ unit && unit ≤ 0xDBFF

def isTrailingSurrogate (unit : Nat) : Bool :=
  0xDC00 ≤ unit && unit ≤ 0xDFFF

def joinSurrogates (leading trailing : Nat) : Char :=
  Char.ofNat ((leading - 0xD800) * 1024 + (trailing - 0xDC00) + 0x10000)

/-- An escape by number, of which the `u` has been read. -/
def scanNumberedEscape (text : List Char) : Except Failure (Char × List Char) := do
  let (unit, rest) ← scanHex text
  if isTrailingSurrogate unit then throw (.before .loneSurrogate rest)
  else if isLeadingSurrogate unit then
    match rest with
    | [] => throw (.before .endInString [])
    | '\\' :: [] => throw (.before .endInString [])
    | '\\' :: 'u' :: rest =>
        let (second, rest) ← scanHex rest
        if isTrailingSurrogate second then pure (joinSurrogates unit second, rest)
        else throw (.before .loneSurrogate rest)
    | '\\' :: rest => throw (.blaming .unfinishedEscape rest)
    | rest => throw (.blaming .unfinishedEscape rest)
  else pure (Char.ofNat unit, rest)

def shortEscape? (c : Char) : Option Char :=
  if c = '"' then some '"'
  else if c = '\\' then some '\\'
  else if c = '/' then some '/'
  else if c = 'b' then some (Char.ofNat 8)
  else if c = 'f' then some (Char.ofNat 12)
  else if c = 'n' then some '\n'
  else if c = 'r' then some '\r'
  else if c = 't' then some '\t'
  else none

def scanEscape : Scan Char
  | [] => .error (.before .endInString [])
  | c :: rest =>
      match shortEscape? c with
      | some character => .ok (character, rest)
      | none =>
          if c = 'u' then scanNumberedEscape rest
          else .error (.blaming .invalidEscape (c :: rest))

/-- The characters of a string up to its closing quote, with fuel for as many
steps as there are characters left. -/
def scanCharacters : Nat → Scan (List Char)
  | 0, text => .error (.before .endInString text)
  | _ + 1, [] => .error (.before .endInString [])
  | fuel + 1, c :: rest =>
      if c = '"' then .ok ([], rest)
      else if c = '\\' then do
        let (character, rest) ← scanEscape rest
        let (more, rest) ← scanCharacters fuel rest
        pure (character :: more, rest)
      else if c.toNat < 32 then .error (.blaming .controlCharacter (c :: rest))
      else do
        let (more, rest) ← scanCharacters fuel rest
        pure (c :: more, rest)

def scanString : Scan String := fun text => do
  let (characters, rest) ← scanCharacters (text.length + 1) text
  pure (String.ofList characters, rest)

def skipEscape : List Char → Except Failure (List Char)
  | [] => .error (.before .endInString [])
  | c :: rest =>
      if (shortEscape? c).isSome then .ok rest
      else if c = 'u' then do
        let (_, rest) ← scanHex rest
        pure rest
      else .error (.blaming .invalidEscape (c :: rest))

def skipCharacters : Nat → List Char → Except Failure (List Char)
  | 0, text => .error (.before .endInString text)
  | _ + 1, [] => .error (.before .endInString [])
  | fuel + 1, c :: rest =>
      if c = '"' then .ok rest
      else if c = '\\' then do
        let rest ← skipEscape rest
        skipCharacters fuel rest
      else if c.toNat < 32 then .error (.before .controlCharacter (c :: rest))
      else skipCharacters fuel rest

def skipString (text : List Char) : Except Failure (List Char) :=
  skipCharacters (text.length + 1) text

/-! ## Numbers -/

inductive Number where
  | integer (value : Int)
  | decimal (value : Binary64)
  deriving DecidableEq

/-- A run of digits.  They are taken into a significand as long as it fits into
64 bits; the digits after that are only counted. -/
structure DigitRun where
  significand : Nat
  taken : Nat
  dropped : Nat
  rest : List Char

def digitRun (significand taken dropped : Nat) : List Char → DigitRun
  | [] => { significand, taken, dropped, rest := [] }
  | c :: rest =>
      if isDigit c then
        let extended := significand * 10 + digitValue c
        if dropped = 0 ∧ extended < Nat.pow 2 64 then digitRun extended (taken + 1) 0 rest
        else digitRun significand taken (dropped + 1) rest
      else { significand, taken, dropped, rest := c :: rest }

def powerOfTen (exponent : Nat) : Binary64 :=
  Binary64.ofDecimal false 1 exponent

/-- A number times a power of ten, in steps of at most `10 ^ 308`.  None if the
result is too large.  The fuel is enough for any significand of 64 bits to become
zero under division. -/
def scaleByTen : Nat → Binary64 → Int → Option Binary64
  | 0, number, _ => some number
  | fuel + 1, number, exponent =>
      if exponent.natAbs ≤ 308 then
        if 0 ≤ exponent then
          let product := number.multiply (powerOfTen exponent.natAbs)
          if product.isFinite then some product else none
        else some (number.divide (powerOfTen exponent.natAbs))
      else if number.isZero then some number
      else if 0 ≤ exponent then none
      else scaleByTen fuel (number.divide (powerOfTen 308)) (exponent + 308)

def assemble (negative : Bool) (significand : Nat) (exponent : Int)
    (rest : List Char) : Except Failure (Number × List Char) :=
  match scaleByTen 4 (Binary64.ofRatio false significand 1) exponent with
  | none => .error (.before .numberOutOfRange rest)
  | some magnitude =>
      .ok (.decimal (if negative then magnitude.negate else magnitude), rest)

def exponentLimit : Nat :=
  2147483647

/-- The digits of an exponent after its first.  None stands for an exponent above
the limit, noticed at the text that is left. -/
def exponentDigits (exponent : Nat) : List Char → Option Nat × List Char
  | [] => (some exponent, [])
  | c :: rest =>
      if isDigit c then
        let extended := exponent * 10 + digitValue c
        if exponentLimit < extended then (none, rest) else exponentDigits extended rest
      else (some exponent, c :: rest)

/-- The exponent of a number, after its `e`. -/
def scanExponent (negative : Bool) (significand : Nat) (start : Int)
    (text : List Char) : Except Failure (Number × List Char) :=
  let (negativeExponent, text) :=
    match text with
    | '+' :: rest => (false, rest)
    | '-' :: rest => (true, rest)
    | _ => (false, text)
  match text with
  | [] => .error (.before .endInValue [])
  | c :: rest =>
      if isDigit c then
        match exponentDigits (digitValue c) rest with
        | (some exponent, rest) =>
            assemble negative significand
              (if negativeExponent then start - exponent else start + exponent) rest
        | (none, rest) =>
            if significand ≠ 0 ∧ negativeExponent = false then
              .error (.before .numberOutOfRange rest)
            else .ok (.decimal (.zero negative), rest.dropWhile isDigit)
      else .error (.blaming .invalidNumber (c :: rest))

/-- The end of a number whose digits have been read: an exponent or nothing. -/
def scanDecimalEnd (negative : Bool) (significand : Nat) (exponent : Int)
    (text : List Char) : Except Failure (Number × List Char) :=
  match text with
  | 'e' :: rest => scanExponent negative significand exponent rest
  | 'E' :: rest => scanExponent negative significand exponent rest
  | rest => assemble negative significand exponent rest

def scanFraction (negative : Bool) (significand dropped : Nat)
    (text : List Char) : Except Failure (Number × List Char) :=
  let run := digitRun significand 0 0 text
  if run.taken = 0 ∧ run.dropped = 0 then
    match run.rest with
    | [] => .error (.before .endInValue [])
    | rest => .error (.blaming .invalidNumber rest)
  else scanDecimalEnd negative run.significand ((dropped : Int) - run.taken) run.rest

/-- A number without point and exponent is an integer if it fits into 64 bits;
minus zero is a decimal. -/
def scanNumberEnd (negative : Bool) (significand dropped : Nat)
    (text : List Char) : Except Failure (Number × List Char) :=
  match text with
  | '.' :: rest => scanFraction negative significand dropped rest
  | 'e' :: rest => scanExponent negative significand dropped rest
  | 'E' :: rest => scanExponent negative significand dropped rest
  | rest =>
      if dropped ≠ 0 then assemble negative significand dropped rest
      else if negative = false then .ok (.integer significand, rest)
      else if significand = 0 ∨ Nat.pow 2 63 < significand then
        .ok (.decimal (Binary64.ofRatio true significand 1), rest)
      else .ok (.integer (-(significand : Int)), rest)

/-- A number of which the sign, if any, has been read. -/
def scanNumber (negative : Bool) : Scan Number
  | [] => .error (.before .endInValue [])
  | c :: rest =>
      if c = '0' then
        match rest with
        | d :: _ =>
            if isDigit d then .error (.blaming .invalidNumber rest)
            else scanNumberEnd negative 0 0 rest
        | [] => scanNumberEnd negative 0 0 rest
      else if isDigit c then
        let run := digitRun 0 0 0 (c :: rest)
        scanNumberEnd negative run.significand run.dropped run.rest
      else .error (.blaming .invalidNumber (c :: rest))

/-- Skips an exponent after its `e`. -/
def skipExponent (text : List Char) : Except Failure (List Char) :=
  let text :=
    match text with
    | '+' :: rest => rest
    | '-' :: rest => rest
    | _ => text
  match text with
  | [] => .error (.before .invalidNumber [])
  | c :: rest =>
      if isDigit c then .ok (rest.dropWhile isDigit)
      else .error (.blaming .invalidNumber (c :: rest))

def skipExponentIfAny : List Char → Except Failure (List Char)
  | 'e' :: rest => skipExponent rest
  | 'E' :: rest => skipExponent rest
  | rest => .ok rest

def skipNumberEnd : List Char → Except Failure (List Char)
  | '.' :: rest =>
      match rest with
      | [] => .error (.before .invalidNumber [])
      | c :: more =>
          if isDigit c then skipExponentIfAny (more.dropWhile isDigit)
          else .error (.blaming .invalidNumber (c :: more))
  | rest => skipExponentIfAny rest

/-- Skips a number of which the sign, if any, has been read. -/
def skipNumber : List Char → Except Failure (List Char)
  | [] => .error (.before .invalidNumber [])
  | c :: rest =>
      if c = '0' then
        match rest with
        | d :: _ =>
            if isDigit d then .error (.blaming .invalidNumber rest) else skipNumberEnd rest
        | [] => .ok []
      else if isDigit c then skipNumberEnd (rest.dropWhile isDigit)
      else .error (.blaming .invalidNumber (c :: rest))

/-! ## Scalars -/

inductive Scalar where
  | null
  | boolean (value : Bool)
  | number (value : Number)
  | text (content : String)
  deriving DecidableEq

def Scalar.found : Scalar → Found
  | null => .null
  | boolean value => .boolean value
  | number (.integer value) => .integer value
  | number (.decimal value) => .decimal value.concise
  | text content => .text content

/-- A scalar.  Brackets and braces begin none. -/
def scanScalar : Scan Scalar
  | [] => .error (.before .endInValue [])
  | c :: rest =>
      if c = 'n' then do
        let rest ← scanLiteral ['u', 'l', 'l'] rest
        pure (.null, rest)
      else if c = 't' then do
        let rest ← scanLiteral ['r', 'u', 'e'] rest
        pure (.boolean true, rest)
      else if c = 'f' then do
        let rest ← scanLiteral ['a', 'l', 's', 'e'] rest
        pure (.boolean false, rest)
      else if c = '"' then do
        let (content, rest) ← scanString rest
        pure (.text content, rest)
      else if c = '-' then do
        let (value, rest) ← scanNumber true rest
        pure (.number value, rest)
      else if isDigit c then do
        let (value, rest) ← scanNumber false (c :: rest)
        pure (.number value, rest)
      else .error (.blaming .expectedValue (c :: rest))

def skipScalar : List Char → Except Failure (List Char)
  | [] => .error (.before .endInValue [])
  | c :: rest =>
      if c = 'n' then scanLiteral ['u', 'l', 'l'] rest
      else if c = 't' then scanLiteral ['r', 'u', 'e'] rest
      else if c = 'f' then scanLiteral ['a', 'l', 's', 'e'] rest
      else if c = '"' then skipString rest
      else if c = '-' then skipNumber rest
      else if isDigit c then skipNumber (c :: rest)
      else .error (.blaming .expectedValue (c :: rest))

end ErrorTaxonomy.Json
