import ErrorTaxonomy.Json.Scanner
import ErrorTaxonomy.Json.Tree

/-!
# The grammar of JSON

Which value a text spells, said apart from any reader or printer.  Every relation is
about a text and what is left of it: blanks may stand around all signs, a number goes
on as long as its characters do, and a string may write a character as itself or by
an escape.  A text spells at most one value, and an object is spelled with its members
in order.
-/

namespace ErrorTaxonomy.Json

/-! ## Strings -/

/-- An escape behind its backslash, and the character it stands for. -/
inductive SpellsEscape : Char → List Char → List Char → Prop
  | short {letter c : Char} {rest : List Char} :
      shortEscape? letter = some c → SpellsEscape c (letter :: rest) rest
  | single {a b c d : Char} {unit : Nat} {rest : List Char} :
      hexQuad? a b c d = some unit → isLeadingSurrogate unit = false →
        isTrailingSurrogate unit = false →
        SpellsEscape (Char.ofNat unit) ('u' :: a :: b :: c :: d :: rest) rest
  | double {a b c d a' b' c' d' : Char} {leading trailing : Nat} {rest : List Char} :
      hexQuad? a b c d = some leading → isLeadingSurrogate leading = true →
        hexQuad? a' b' c' d' = some trailing → isTrailingSurrogate trailing = true →
        SpellsEscape (joinSurrogates leading trailing)
          ('u' :: a :: b :: c :: d :: '\\' :: 'u' :: a' :: b' :: c' :: d' :: rest) rest

/-- The characters of a string behind its opening quote, up to the closing one. -/
inductive SpellsCharacters : List Char → List Char → List Char → Prop
  | closed {rest : List Char} : SpellsCharacters [] ('"' :: rest) rest
  | plain {c : Char} {more text rest : List Char} :
      c ≠ '"' → c ≠ '\\' → 32 ≤ c.toNat → SpellsCharacters more text rest →
        SpellsCharacters (c :: more) (c :: text) rest
  | escaped {c : Char} {more text middle rest : List Char} :
      SpellsEscape c text middle → SpellsCharacters more middle rest →
        SpellsCharacters (c :: more) ('\\' :: text) rest

/-! ## Numbers -/

def isNumeralChar (c : Char) : Bool :=
  isDigit c || c = '-' || c = '+' || c = '.' || c = 'e' || c = 'E'

/-- Digits, of which the first is a zero only if it is the only one. -/
def IsWhole (digits : List Char) : Prop :=
  digits ≠ [] ∧ (∀ c ∈ digits, isDigit c = true) ∧
    (digits.head? = some '0' → digits = ['0'])

def IsInteger (text : List Char) : Prop :=
  IsWhole text ∨ ∃ digits, IsWhole digits ∧ text = '-' :: digits

def integerValue : List Char → Int
  | '-' :: digits => -Nat.ofDigitChars 10 digits 0
  | digits => Nat.ofDigitChars 10 digits 0

def IsFraction (text : List Char) : Prop :=
  ∃ digits, digits ≠ [] ∧ (∀ c ∈ digits, isDigit c = true) ∧ text = '.' :: digits

def IsExponent (text : List Char) : Prop :=
  ∃ mark sign digits, (mark = 'e' ∨ mark = 'E') ∧
    (sign = [] ∨ sign = ['+'] ∨ sign = ['-']) ∧
    digits ≠ [] ∧ (∀ c ∈ digits, isDigit c = true) ∧ text = mark :: (sign ++ digits)

/-- A number with a fraction, an exponent or both. -/
def IsDecimal (text : List Char) : Prop :=
  ∃ whole fraction exponent, IsInteger whole ∧ (fraction = [] ∨ IsFraction fraction) ∧
    (exponent = [] ∨ IsExponent exponent) ∧ (IsFraction fraction ∨ IsExponent exponent) ∧
    text = whole ++ fraction ++ exponent

inductive SpellsNumber : Json → List Char → Prop
  | integer {text : List Char} :
      IsInteger text → SpellsNumber (.integer (integerValue text)) text
  | decimal {literal : String} :
      IsDecimal literal.toList → SpellsNumber (.decimal literal) literal.toList

/-! ## Values -/

/-- What is spelled by a part of a text: a value, a member of an object, or the items
or members behind the first, with the bracket or brace that closes them. -/
inductive Piece where
  | value (value : Json)
  | member (key : String) (value : Json)
  | items (items : List Json)
  | members (members : List (String × Json))

inductive Spells : Piece → List Char → List Char → Prop
  | null {rest : List Char} : Spells (.value .null) ('n' :: 'u' :: 'l' :: 'l' :: rest) rest
  | yes {rest : List Char} :
      Spells (.value (.bool true)) ('t' :: 'r' :: 'u' :: 'e' :: rest) rest
  | no {rest : List Char} :
      Spells (.value (.bool false)) ('f' :: 'a' :: 'l' :: 's' :: 'e' :: rest) rest
  | number {value : Json} {text : List Char} :
      SpellsNumber value (text.takeWhile isNumeralChar) →
        Spells (.value value) text (text.dropWhile isNumeralChar)
  | string {content : String} {text rest : List Char} :
      SpellsCharacters content.toList text rest →
        Spells (.value (.string content)) ('"' :: text) rest
  | emptyArray {text rest : List Char} :
      skipBlank text = ']' :: rest → Spells (.value (.array [])) ('[' :: text) rest
  | array {first : Json} {more : List Json} {text middle rest : List Char} :
      Spells (.value first) (skipBlank text) middle → Spells (.items more) middle rest →
        Spells (.value (.array (first :: more))) ('[' :: text) rest
  | emptyObject {text rest : List Char} :
      skipBlank text = '}' :: rest → Spells (.value (.object [])) ('{' :: text) rest
  | object {key : String} {first : Json} {more : List (String × Json)}
      {text middle rest : List Char} :
      Spells (.member key first) (skipBlank text) middle →
        Spells (.members more) middle rest →
        Spells (.value (.object ((key, first) :: more))) ('{' :: text) rest
  | member {key : String} {value : Json} {text middle colon rest : List Char} :
      SpellsCharacters key.toList text middle → skipBlank middle = ':' :: colon →
        Spells (.value value) (skipBlank colon) rest →
        Spells (.member key value) ('"' :: text) rest
  | noItems {text rest : List Char} :
      skipBlank text = ']' :: rest → Spells (.items []) text rest
  | item {item : Json} {more : List Json} {text comma middle rest : List Char} :
      skipBlank text = ',' :: comma → Spells (.value item) (skipBlank comma) middle →
        Spells (.items more) middle rest → Spells (.items (item :: more)) text rest
  | noMembers {text rest : List Char} :
      skipBlank text = '}' :: rest → Spells (.members []) text rest
  | moreMembers {key : String} {value : Json} {more : List (String × Json)}
      {text comma middle rest : List Char} :
      skipBlank text = ',' :: comma →
        Spells (.member key value) (skipBlank comma) middle →
        Spells (.members more) middle rest →
        Spells (.members ((key, value) :: more)) text rest

/-- A whole text spells a value, with blanks around it. -/
def Denotes (text : List Char) (value : Json) : Prop :=
  ∃ rest, Spells (.value value) (skipBlank text) rest ∧ skipBlank rest = []

/-! ## A text spells at most one value -/

section Uniqueness

variable {text rest rest' : List Char}

theorem SpellsEscape.unique {c c' : Char} (hescape : SpellsEscape c text rest)
    (hescape' : SpellsEscape c' text rest') : c = c' ∧ rest = rest' := by
  cases hescape with
  | short hletter =>
      cases hescape' with
      | short hletter' => exact ⟨Option.some.inj (hletter.symm.trans hletter'), rfl⟩
      | single _ _ _ => simp [shortEscape?] at hletter
      | double _ _ _ _ => simp [shortEscape?] at hletter
  | single hunit hleading htrailing =>
      cases hescape' with
      | short hletter' => simp [shortEscape?] at hletter'
      | single hunit' _ _ =>
          obtain rfl := Option.some.inj (hunit.symm.trans hunit')
          exact ⟨rfl, rfl⟩
      | double hunit' hleading' _ _ =>
          obtain rfl := Option.some.inj (hunit.symm.trans hunit')
          simp [hleading] at hleading'
  | double hunit hleading hsecond _ =>
      cases hescape' with
      | short hletter' => simp [shortEscape?] at hletter'
      | single hunit' hleading' _ =>
          obtain rfl := Option.some.inj (hunit.symm.trans hunit')
          simp [hleading] at hleading'
      | double hunit' _ hsecond' _ =>
          obtain rfl := Option.some.inj (hunit.symm.trans hunit')
          obtain rfl := Option.some.inj (hsecond.symm.trans hsecond')
          exact ⟨rfl, rfl⟩

theorem SpellsCharacters.unique {characters characters' : List Char}
    (hspells : SpellsCharacters characters text rest)
    (hspells' : SpellsCharacters characters' text rest') :
    characters = characters' ∧ rest = rest' := by
  induction hspells generalizing characters' with
  | closed =>
      cases hspells' with
      | closed => exact ⟨rfl, rfl⟩
      | plain hquote _ _ _ => exact absurd rfl hquote
  | plain hquote hbackslash _ _ ih =>
      cases hspells' with
      | closed => exact absurd rfl hquote
      | plain _ _ _ hmore => simp [ih hmore]
      | escaped _ _ => exact absurd rfl hbackslash
  | escaped hescape _ ih =>
      cases hspells' with
      | plain _ hbackslash _ _ => exact absurd rfl hbackslash
      | escaped hescape' hmore =>
          obtain ⟨rfl, rfl⟩ := hescape.unique hescape'
          simp [ih hmore]

theorem isInteger_mem {c : Char} (hinteger : IsInteger text) (hmem : c ∈ text) :
    isDigit c = true ∨ c = '-' := by
  rcases hinteger with hwhole | ⟨digits, hwhole, rfl⟩
  · exact .inl (hwhole.2.1 c hmem)
  · rcases List.mem_cons.mp hmem with hsign | hdigit
    · exact .inr hsign
    · exact .inl (hwhole.2.1 c hdigit)

theorem isDecimal_mark (hdecimal : IsDecimal text) :
    ∃ c ∈ text, c = '.' ∨ c = 'e' ∨ c = 'E' := by
  obtain ⟨whole, fraction, exponent, _, _, _, hpart, rfl⟩ := hdecimal
  rcases hpart with ⟨digits, _, _, rfl⟩ | ⟨mark, sign, digits, hmark, _, _, _, rfl⟩
  · exact ⟨'.', by simp, .inl rfl⟩
  · exact ⟨mark, by simp, .inr hmark⟩

theorem not_isDecimal_of_isInteger (hinteger : IsInteger text) : ¬ IsDecimal text := by
  intro hdecimal
  obtain ⟨c, hmem, hmark⟩ := isDecimal_mark hdecimal
  rcases hmark with rfl | rfl | rfl <;>
    rcases isInteger_mem hinteger hmem with hdigit | hsign <;> simp_all [isDigit]

theorem SpellsNumber.unique {value value' : Json} (hspells : SpellsNumber value text)
    (hspells' : SpellsNumber value' text) : value = value' := by
  cases hspells with
  | integer hinteger =>
      cases hspells' with
      | integer _ => rfl
      | decimal hdecimal => exact absurd hdecimal (not_isDecimal_of_isInteger hinteger)
  | @decimal literal hdecimal =>
      generalize hliteral : literal.toList = text at hspells' hdecimal
      cases hspells' with
      | integer hinteger => exact absurd hdecimal (not_isDecimal_of_isInteger hinteger)
      | decimal _ => rw [String.toList_inj.mp hliteral]

theorem SpellsNumber.ne_nil {value : Json} (hspells : SpellsNumber value text) :
    text ≠ [] := by
  cases hspells with
  | integer hinteger =>
      rcases hinteger with hwhole | ⟨digits, _, rfl⟩
      · exact hwhole.1
      · simp
  | decimal hdecimal =>
      obtain ⟨c, hmem, _⟩ := isDecimal_mark hdecimal
      exact List.ne_nil_of_mem hmem

/-- A text that begins otherwise spells no number. -/
theorem not_spellsNumber {c : Char} {value : Json} (hc : isNumeralChar c = false) :
    ¬ SpellsNumber value ((c :: text).takeWhile isNumeralChar) := by
  intro hspells
  apply hspells.ne_nil
  rw [List.takeWhile_cons_of_neg (by simp [hc])]

end Uniqueness

/-- What a part of a text spells and what it leaves are determined by the text. -/
def Determined : Piece → List Char → List Char → Prop
  | .value value, text, rest => ∀ value' rest',
      Spells (.value value') text rest' → value = value' ∧ rest = rest'
  | .member key value, text, rest => ∀ key' value' rest',
      Spells (.member key' value') text rest' → key = key' ∧ value = value' ∧ rest = rest'
  | .items items, text, rest => ∀ items' rest',
      Spells (.items items') text rest' → items = items' ∧ rest = rest'
  | .members members, text, rest => ∀ members' rest',
      Spells (.members members') text rest' → members = members' ∧ rest = rest'

theorem not_spells_bracket {value : Json} {text rest : List Char} :
    ¬ Spells (.value value) (']' :: text) rest := by
  intro hspells
  cases hspells with
  | number hnumber => exact not_spellsNumber (by decide) hnumber

theorem Spells.determined {piece : Piece} {text rest : List Char}
    (hspells : Spells piece text rest) : Determined piece text rest := by
  -- The first sign tells the rules apart, except that a number begins with no sign.
  induction hspells with
  | null =>
      intro value' rest' hspells'
      cases hspells' with
      | null => exact ⟨rfl, rfl⟩
      | number hnumber => exact absurd hnumber (not_spellsNumber (by decide))
  | yes =>
      intro value' rest' hspells'
      cases hspells' with
      | yes => exact ⟨rfl, rfl⟩
      | number hnumber => exact absurd hnumber (not_spellsNumber (by decide))
  | no =>
      intro value' rest' hspells'
      cases hspells' with
      | no => exact ⟨rfl, rfl⟩
      | number hnumber => exact absurd hnumber (not_spellsNumber (by decide))
  | number hnumber =>
      intro value' rest' hspells'
      cases hspells' with
      | number hnumber' => exact ⟨hnumber.unique hnumber', rfl⟩
      | _ => exact absurd hnumber (not_spellsNumber (by decide))
  | string hcharacters =>
      intro value' rest' hspells'
      cases hspells' with
      | string hcharacters' =>
          obtain ⟨hcontent, rfl⟩ := hcharacters.unique hcharacters'
          simp [String.toList_inj.mp hcontent]
      | number hnumber => exact absurd hnumber (not_spellsNumber (by decide))
  | emptyArray hclosed =>
      intro value' rest' hspells'
      cases hspells' with
      | emptyArray hclosed' => simpa [hclosed] using hclosed'
      | array hfirst _ =>
          rw [hclosed] at hfirst
          exact absurd hfirst not_spells_bracket
      | number hnumber => exact absurd hnumber (not_spellsNumber (by decide))
  | array hfirst _ ihfirst ihmore =>
      intro value' rest' hspells'
      cases hspells' with
      | emptyArray hclosed' =>
          rw [hclosed'] at hfirst
          exact absurd hfirst not_spells_bracket
      | array hfirst' hmore' =>
          obtain ⟨rfl, rfl⟩ := ihfirst _ _ hfirst'
          obtain ⟨rfl, rfl⟩ := ihmore _ _ hmore'
          exact ⟨rfl, rfl⟩
      | number hnumber => exact absurd hnumber (not_spellsNumber (by decide))
  | emptyObject hclosed =>
      intro value' rest' hspells'
      cases hspells' with
      | emptyObject hclosed' => simpa [hclosed] using hclosed'
      | object hfirst' _ =>
          rw [hclosed] at hfirst'
          cases hfirst'
      | number hnumber => exact absurd hnumber (not_spellsNumber (by decide))
  | object hfirst _ ihfirst ihmore =>
      intro value' rest' hspells'
      cases hspells' with
      | emptyObject hclosed' =>
          rw [hclosed'] at hfirst
          cases hfirst
      | object hfirst' hmore' =>
          obtain ⟨rfl, rfl, rfl⟩ := ihfirst _ _ _ hfirst'
          obtain ⟨rfl, rfl⟩ := ihmore _ _ hmore'
          exact ⟨rfl, rfl⟩
      | number hnumber => exact absurd hnumber (not_spellsNumber (by decide))
  | member hkey hcolon _ ih =>
      intro key' value' rest' hspells'
      cases hspells' with
      | member hkey' hcolon' hvalue' =>
          obtain ⟨hkeys, rfl⟩ := hkey.unique hkey'
          rw [hcolon, List.cons.injEq] at hcolon'
          obtain ⟨_, rfl⟩ := hcolon'
          exact ⟨String.toList_inj.mp hkeys, ih _ _ hvalue'⟩
  | noItems hclosed =>
      intro items' rest' hspells'
      cases hspells' with
      | noItems hclosed' => simpa [hclosed] using hclosed'
      | item hcomma' _ _ => simp [hclosed] at hcomma'
  | item hcomma _ _ ihitem ihmore =>
      intro items' rest' hspells'
      cases hspells' with
      | noItems hclosed' => simp [hcomma] at hclosed'
      | item hcomma' hitem' hmore' =>
          rw [hcomma, List.cons.injEq] at hcomma'
          obtain ⟨_, rfl⟩ := hcomma'
          obtain ⟨rfl, rfl⟩ := ihitem _ _ hitem'
          obtain ⟨rfl, rfl⟩ := ihmore _ _ hmore'
          exact ⟨rfl, rfl⟩
  | noMembers hclosed =>
      intro members' rest' hspells'
      cases hspells' with
      | noMembers hclosed' => simpa [hclosed] using hclosed'
      | moreMembers hcomma' _ _ => simp [hclosed] at hcomma'
  | moreMembers hcomma _ _ ihmember ihmore =>
      intro members' rest' hspells'
      cases hspells' with
      | noMembers hclosed' => simp [hcomma] at hclosed'
      | moreMembers hcomma' hmember' hmore' =>
          rw [hcomma, List.cons.injEq] at hcomma'
          obtain ⟨_, rfl⟩ := hcomma'
          obtain ⟨rfl, rfl, rfl⟩ := ihmember _ _ _ hmember'
          obtain ⟨rfl, rfl⟩ := ihmore _ _ hmore'
          exact ⟨rfl, rfl⟩

theorem Denotes.unique {text : List Char} {value value' : Json}
    (hdenotes : Denotes text value) (hdenotes' : Denotes text value') : value = value' := by
  obtain ⟨_, hspells, _⟩ := hdenotes
  obtain ⟨_, hspells', _⟩ := hdenotes'
  exact (hspells.determined _ _ hspells').1

end ErrorTaxonomy.Json
