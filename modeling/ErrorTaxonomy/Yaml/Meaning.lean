import ErrorTaxonomy.Binary64
import ErrorTaxonomy.Decoding
import ErrorTaxonomy.Yaml.Token

/-!
# What a scalar means

A scalar is always taken for a text where a text is wanted.  Where it cannot
stand, it is shown in the message as what it would mean by itself: a plain scalar
may be nothing, a truth value or a number, and a tag may insist on one of them.
-/

namespace ErrorTaxonomy.Yaml

def isNullText (content : String) : Bool :=
  content = "null" || content = "Null" || content = "NULL" || content = "~"

def boolean? (content : String) : Option Bool :=
  if content = "true" ∨ content = "True" ∨ content = "TRUE" then some true
  else if content = "false" ∨ content = "False" ∨ content = "FALSE" then some false
  else none

/-! ## Integers -/

/-- The value of a digit in bases up to sixteen. -/
def digitIn? (base : Nat) (c : Char) : Option Nat :=
  match hexValue? c with
  | some value => if value < base then some value else none
  | none => none

/-- The number that digits of a base give; there has to be one at least. -/
def natural? (base : Nat) (digits : List Char) : Option Nat :=
  if digits = [] then none
  else
    digits.foldl
      (fun value c => do
        let value ← value
        let digit ← digitIn? base c
        pure (value * base + digit))
      (some 0)

/-- Without a plus sign in front. -/
def withoutPlus : List Char → List Char
  | '+' :: rest => rest
  | text => text

/-- Whether a text is a zero followed by other digits, which is no number. -/
def isPaddedNumber (text : List Char) : Bool :=
  match withoutSign text with
  | '0' :: c :: rest => (c :: rest).all Char.isDigit
  | _ => false
where
  withoutSign : List Char → List Char
    | '+' :: rest => rest
    | '-' :: rest => rest
    | text => text

def based? : List Char → Option (Nat × List Char)
  | '0' :: 'x' :: rest => some (16, rest)
  | '0' :: 'o' :: rest => some (8, rest)
  | '0' :: 'b' :: rest => some (2, rest)
  | _ => none

/-- A natural number below a limit, with or without a plus sign. -/
def unsigned? (limit : Nat) (text : List Char) : Option Nat :=
  let digits := withoutPlus text
  let value :=
    match based? digits with
    | some (base, rest) => natural? base rest
    | none => if isPaddedNumber text then none else natural? 10 digits
  value.filter fun value => value < limit

/-- A negative number of at most the given magnitude. -/
def negative? (limit : Nat) : List Char → Option Int
  | '-' :: digits =>
      let value :=
        match based? digits with
        | some (base, rest) => natural? base rest
        | none => if isPaddedNumber ('-' :: digits) then none else natural? 10 digits
      (value.filter fun value => value ≤ limit).map fun value => -(value : Int)
  | _ => none

/-- An integer of at most 64 bits, or of at most 128. -/
def integer? (text : List Char) : Option Found :=
  ((unsigned? (Nat.pow 2 64) text).map fun value => Found.integer value) <|>
    ((negative? (Nat.pow 2 63) text).map Found.integer) <|>
    ((unsigned? (Nat.pow 2 128) text).map fun value => Found.wideInteger value "u128") <|>
    ((negative? (Nat.pow 2 127) text).map fun value => Found.wideInteger value "i128")

/-! ## Decimals -/

def exponent? : List Char → Option Int
  | [] => some 0
  | c :: rest =>
      if c = 'e' ∨ c = 'E' then
        match rest with
        | '-' :: digits => (natural? 10 digits).map fun value => -(value : Int)
        | '+' :: digits => (natural? 10 digits).map fun value => (value : Int)
        | digits => (natural? 10 digits).map fun value => (value : Int)
      else none

/-- A decimal without a sign: digits around a point, and an exponent. -/
def magnitude? (negative : Bool) (text : List Char) : Option Binary64 := do
  let whole := text.takeWhile Char.isDigit
  let rest := text.dropWhile Char.isDigit
  let (fraction, rest) :=
    match rest with
    | '.' :: rest => (rest.takeWhile Char.isDigit, rest.dropWhile Char.isDigit)
    | _ => ([], rest)
  let digits ← natural? 10 (whole ++ fraction)
  let exponent ← exponent? rest
  let value := Binary64.ofDecimal negative digits (exponent - fraction.length)
  if value.isFinite then some value else none

def isInfinityText (text : List Char) : Bool :=
  text = ".inf".toList || text = ".Inf".toList || text = ".INF".toList

def isNanText (text : List Char) : Bool :=
  text = ".nan".toList || text = ".NaN".toList || text = ".NAN".toList

def decimal? (text : List Char) : Option Binary64 :=
  if isInfinityText (withoutPlus text) then some (.infinite false)
  else if isNanText text then some .nan
  else
    match text with
    | '-' :: rest => if isInfinityText rest then some (.infinite true) else magnitude? true rest
    | '+' :: rest => magnitude? false rest
    | rest => magnitude? false rest

/-! ## Scalars -/

def plainMeaning (content : String) : Found :=
  let text := content.toList
  if content = "" ∨ isNullText content then .unit
  else
    match boolean? content with
    | some value => .boolean value
    | none =>
        match integer? text with
        | some found => found
        | none =>
            match if isPaddedNumber text then none else decimal? text with
            | some value => .decimal value.plain
            | none => .text content

/-- The tags under which a scalar has to mean something definite. -/
inductive CoreTag where
  | bool
  | int
  | float
  | null
  deriving DecidableEq

namespace CoreTag

def ofTag? (tag : String) : Option CoreTag :=
  if tag = "tag:yaml.org,2002:bool" then some bool
  else if tag = "tag:yaml.org,2002:int" then some int
  else if tag = "tag:yaml.org,2002:float" then some float
  else if tag = "tag:yaml.org,2002:null" then some null
  else none

/-- What a text means under a tag, if it can. -/
def meaning? (tag : CoreTag) (content : String) : Option Found :=
  match tag with
  | bool => (boolean? content).map .boolean
  | int => integer? content.toList
  | float => (decimal? content.toList).map fun value => .decimal value.plain
  | null => if isNullText content then some .unit else none

def title : CoreTag → String
  | bool => "a boolean"
  | int => "an integer"
  | float => "a float"
  | null => "null"

end CoreTag

/-- What is said of a scalar that stands where something else is expected. -/
def scalarComplaint (style : ScalarStyle) (tag : Option String) (content expected : String) :
    Complaint :=
  match tag.bind CoreTag.ofTag? with
  | some core =>
      match core.meaning? content with
      | some found => .wrongType found expected
      | none => .wrongValue (.text content) core.title
  | none =>
      let isLocal := tag.all fun tag => tag.toList.head? == some '!'
      if isLocal ∧ style = .plain then .wrongType (plainMeaning content) expected
      else .wrongType (.text content) expected

end ErrorTaxonomy.Yaml
