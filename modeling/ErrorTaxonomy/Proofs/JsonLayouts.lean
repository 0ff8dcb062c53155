import ErrorTaxonomy.Json.Printer
import ErrorTaxonomy.Proofs.JsonGrammar
import Mathlib.Tactic.SplitIfs

/-!
# The layouts of JSON

Both layouts of a value spell it.  What a layout adds are blanks between signs, where
they may stand, so each sign is followed through with the blanks in front of what comes
after it, and the two layouts only differ in which blanks these are.
-/

namespace ErrorTaxonomy.Json

/-! ## Strings -/

theorem hexQuad?_control : ∀ number < 32,
    hexQuad? '0' '0' (hexDigit (number / 16)) (hexDigit (number % 16)) = some number ∧
      isLeadingSurrogate number = false ∧ isTrailingSurrogate number = false := by
  decide

/-- The ways in which a character is written within a string. -/
inductive Escaping (c : Char) : List Char → Prop
  | short {letter : Char} : shortEscape? letter = some c → Escaping c ['\\', letter]
  | control :
      c.toNat < 32 →
        Escaping c ['\\', 'u', '0', '0', hexDigit (c.toNat / 16), hexDigit (c.toNat % 16)]
  | plain : c ≠ '"' → c ≠ '\\' → 32 ≤ c.toNat → Escaping c [c]

theorem escaping_escapedChar (c : Char) : Escaping c (escapedChar c) := by
  unfold escapedChar
  split_ifs with hquote hbackslash hnewline hreturn htab hback hfeed hcontrol
  · exact .short (by rw [hquote]; rfl)
  · exact .short (by rw [hbackslash]; rfl)
  · exact .short (by rw [hnewline]; rfl)
  · exact .short (by rw [hreturn]; rfl)
  · exact .short (by rw [htab]; rfl)
  · exact .short (by rw [hback]; rfl)
  · exact .short (by rw [hfeed]; rfl)
  · exact .control hcontrol
  · exact .plain hquote hbackslash (Nat.le_of_not_lt hcontrol)

theorem spellsCharacters_escapedChar (c : Char) {more text rest : List Char}
    (hmore : SpellsCharacters more text rest) :
    SpellsCharacters (c :: more) (escapedChar c ++ text) rest := by
  have hescaping := escaping_escapedChar c
  generalize escapedChar c = spelled at hescaping ⊢
  cases hescaping with
  | short hletter => exact .escaped (.short hletter) hmore
  | control hcontrol =>
      obtain ⟨hunit, hleading, htrailing⟩ := hexQuad?_control c.toNat hcontrol
      have hescape : SpellsEscape (Char.ofNat c.toNat)
          ('u' :: '0' :: '0' :: hexDigit (c.toNat / 16) :: hexDigit (c.toNat % 16) :: text)
          text := .single hunit hleading htrailing
      rw [Char.ofNat_toNat] at hescape
      exact .escaped hescape hmore
  | plain hquote hbackslash hprintable =>
      exact .plain hquote hbackslash hprintable hmore

theorem spellsCharacters_escaped (characters rest : List Char) :
    SpellsCharacters characters (escaped characters ++ '"' :: rest) rest := by
  induction characters with
  | nil => exact .closed
  | cons c more ih =>
      rw [escaped, List.flatMap_cons, List.append_assoc]
      exact spellsCharacters_escapedChar c ih

theorem quoted_append (text : String) (rest : List Char) :
    quoted text ++ rest = '"' :: (escaped text.toList ++ '"' :: rest) := by
  simp [quoted]

/-! ## Numbers -/

theorem eq_zero_of_head?_toDigits (number : Nat)
    (hzero : (Nat.toDigits 10 number).head? = some '0') : number = 0 := by
  induction number using Nat.strongRecOn with
  | ind number ih =>
      rw [Nat.toDigits_eq_if (by decide)] at hzero
      by_cases hsmall : number < 10
      · rw [if_pos hsmall] at hzero
        have hdigit : ∀ digit < 10, [digit.digitChar].head? = some '0' → digit = 0 := by
          decide
        exact hdigit number hsmall hzero
      · rw [if_neg hsmall, List.head?_append, Option.or_of_isSome] at hzero
        · have hquotient := ih (number / 10) (by omega) hzero
          omega
        · simp [Nat.toDigits_ne_nil]

theorem isWhole_toDigits (number : Nat) : IsWhole (Nat.toDigits 10 number) := by
  refine ⟨Nat.toDigits_ne_nil, ?_, ?_⟩
  · intro c hmem
    have hdigit := Nat.isDigit_of_mem_toDigits (by decide) (by decide) hmem
    simpa [Char.isDigit, isDigit, Char.le_def] using hdigit
  · intro hzero
    rw [eq_zero_of_head?_toDigits number hzero]
    rfl

theorem integerValue_of_isWhole {digits : List Char} (hwhole : IsWhole digits) :
    integerValue digits = Nat.ofDigitChars 10 digits 0 := by
  unfold integerValue
  split
  · have hsign := hwhole.2.1 '-' List.mem_cons_self
    simp [isDigit] at hsign
  · rfl

theorem spellsNumber_toString (value : Int) :
    SpellsNumber (.integer value) (toString value).toList := by
  rw [Int.toString_eq_repr, Int.repr_eq_if]
  by_cases hsign : 0 ≤ value
  · have hwhole := isWhole_toDigits value.toNat
    have hvalue : integerValue (Nat.toDigits 10 value.toNat) = value := by
      rw [integerValue_of_isWhole hwhole, Nat.ofDigitChars_ten_toDigits]
      omega
    rw [if_pos hsign, Nat.toList_repr]
    have hspells : SpellsNumber _ (Nat.toDigits 10 value.toNat) := .integer (.inl hwhole)
    rwa [hvalue] at hspells
  · have hwhole := isWhole_toDigits (-value).toNat
    have hvalue : integerValue ('-' :: Nat.toDigits 10 (-value).toNat) = value := by
      rw [integerValue, Nat.ofDigitChars_ten_toDigits]
      omega
    have htext : ("-" ++ (-value).toNat.repr).toList =
        '-' :: Nat.toDigits 10 (-value).toNat := by
      simp [Nat.toList_repr]
    rw [if_neg hsign, htext]
    have hspells : SpellsNumber _ ('-' :: Nat.toDigits 10 (-value).toNat) :=
      .integer (.inr ⟨_, hwhole, rfl⟩)
    rwa [hvalue] at hspells

theorem isNumeralChar_of_isInteger {text : List Char} (hinteger : IsInteger text) :
    ∀ c ∈ text, isNumeralChar c = true := by
  intro c hmem
  rcases isInteger_mem hinteger hmem with hdigit | hsign
  · simp [isNumeralChar, hdigit]
  · simp [isNumeralChar, hsign]

theorem isNumeralChar_of_isDecimal {text : List Char} (hdecimal : IsDecimal text) :
    ∀ c ∈ text, isNumeralChar c = true := by
  obtain ⟨whole, fraction, exponent, hwhole, hfraction, hexponent, _, rfl⟩ := hdecimal
  have hdigits : ∀ {digits : List Char}, (∀ c ∈ digits, isDigit c = true) →
      ∀ c ∈ digits, isNumeralChar c = true := fun hall c hmem => by
    simp [isNumeralChar, hall c hmem]
  rw [List.forall_mem_append, List.forall_mem_append]
  refine ⟨⟨isNumeralChar_of_isInteger hwhole, ?_⟩, ?_⟩
  · rcases hfraction with rfl | ⟨digits, _, hall, rfl⟩
    · simp
    · exact List.forall_mem_cons.mpr ⟨by decide, hdigits hall⟩
  · rcases hexponent with rfl | ⟨mark, sign, digits, hmark, hsign, _, hall, rfl⟩
    · simp
    · rw [List.forall_mem_cons, List.forall_mem_append]
      refine ⟨?_, ?_, hdigits hall⟩
      · rcases hmark with rfl | rfl <;> decide
      · rcases hsign with rfl | rfl | rfl <;> simp [isNumeralChar]

theorem SpellsNumber.isNumeralChar {value : Json} {text : List Char}
    (hspells : SpellsNumber value text) : ∀ c ∈ text, isNumeralChar c = true := by
  cases hspells with
  | integer hinteger => exact isNumeralChar_of_isInteger hinteger
  | decimal hdecimal => exact isNumeralChar_of_isDecimal hdecimal

/-- No character that a number in front of it would take in. -/
def EndsNumber (rest : List Char) : Prop :=
  ∀ c ∈ rest.head?, isNumeralChar c = false

theorem endsNumber_nil : EndsNumber [] := by
  simp [EndsNumber]

theorem endsNumber_cons {c : Char} (hc : isNumeralChar c = false) (rest : List Char) :
    EndsNumber (c :: rest) := by
  simpa [EndsNumber] using hc

theorem spells_number {value : Json} {text rest : List Char}
    (hspells : SpellsNumber value text) (hrest : EndsNumber rest) :
    Spells (.value value) (text ++ rest) rest := by
  have hnone : rest.takeWhile Json.isNumeralChar = [] ∧
      rest.dropWhile Json.isNumeralChar = rest := by
    cases rest with
    | nil => simp
    | cons c more =>
        have hc : Json.isNumeralChar c = false := hrest c rfl
        simp [hc]
  have hnumber : SpellsNumber value ((text ++ rest).takeWhile Json.isNumeralChar) := by
    rwa [List.takeWhile_append_of_pos hspells.isNumeralChar, hnone.1, List.append_nil]
  have hvalue := Spells.number hnumber
  rwa [List.dropWhile_append_of_pos hspells.isNumeralChar, hnone.2] at hvalue

/-! ## Blanks -/

def Blanks (text : List Char) : Prop :=
  ∀ c ∈ text, isBlank c = true

theorem blanks_nil : Blanks [] := by
  simp [Blanks]

theorem blanks_space : Blanks [' '] := by
  simp [Blanks, isBlank]

theorem blanks_freshLine (depth : Nat) : Blanks (freshLine depth) := by
  simp [Blanks, freshLine, isBlank]

theorem isBlank_of_isNumeralChar {c : Char} (hnumeral : isNumeralChar c = true) :
    isBlank c = false := by
  apply Bool.eq_false_iff.mpr
  intro hblank
  simp only [isBlank, Bool.or_eq_true, decide_eq_true_eq] at hblank
  rcases hblank with ((rfl | rfl) | rfl) | rfl <;> simp [isNumeralChar, isDigit] at hnumeral

section Spaced

variable {blanks text middle rest : List Char} {value : Json} {key : String}

theorem skipBlank_append (hblanks : Blanks blanks) :
    skipBlank (blanks ++ text) = skipBlank text :=
  List.dropWhile_append_of_pos hblanks

/-- A value begins with a sign of its own. -/
theorem skipBlank_of_value (hspells : Spells (.value value) text rest) :
    skipBlank text = text := by
  cases hspells with
  | number hnumber =>
      cases text with
      | nil => rfl
      | cons c more =>
          by_cases hnumeral : isNumeralChar c = true
          · simp [skipBlank, isBlank_of_isNumeralChar hnumeral]
          · exact absurd hnumber (not_spellsNumber (Bool.eq_false_iff.mpr hnumeral))
  | _ => rfl

theorem skipBlank_of_member (hspells : Spells (.member key value) text rest) :
    skipBlank text = text := by
  cases hspells
  rfl

theorem Spells.spacedMember (hblanks : Blanks blanks)
    (hvalue : Spells (.value value) text rest) :
    Spells (.member key value) (quoted key ++ ':' :: (blanks ++ text)) rest := by
  rw [quoted_append]
  have hspaced : Spells (.value value) (skipBlank (blanks ++ text)) rest := by
    rwa [skipBlank_append hblanks, skipBlank_of_value hvalue]
  exact .member (spellsCharacters_escaped _ _) rfl hspaced

theorem Spells.spacedArray {more : List Json} (hblanks : Blanks blanks)
    (hfirst : Spells (.value value) text middle) (hmore : Spells (.items more) middle rest) :
    Spells (.value (.array (value :: more))) ('[' :: (blanks ++ text)) rest := by
  have hspaced : Spells (.value value) (skipBlank (blanks ++ text)) middle := by
    rwa [skipBlank_append hblanks, skipBlank_of_value hfirst]
  exact .array hspaced hmore

theorem Spells.spacedItem {more : List Json} (hblanks : Blanks blanks)
    (hitem : Spells (.value value) text middle) (hmore : Spells (.items more) middle rest) :
    Spells (.items (value :: more)) (',' :: (blanks ++ text)) rest := by
  have hspaced : Spells (.value value) (skipBlank (blanks ++ text)) middle := by
    rwa [skipBlank_append hblanks, skipBlank_of_value hitem]
  exact .item rfl hspaced hmore

theorem Spells.spacedObject {more : List (String × Json)} (hblanks : Blanks blanks)
    (hfirst : Spells (.member key value) text middle)
    (hmore : Spells (.members more) middle rest) :
    Spells (.value (.object ((key, value) :: more))) ('{' :: (blanks ++ text)) rest := by
  have hspaced : Spells (.member key value) (skipBlank (blanks ++ text)) middle := by
    rwa [skipBlank_append hblanks, skipBlank_of_member hfirst]
  exact .object hspaced hmore

theorem Spells.spacedMembers {more : List (String × Json)} (hblanks : Blanks blanks)
    (hmember : Spells (.member key value) text middle)
    (hmore : Spells (.members more) middle rest) :
    Spells (.members ((key, value) :: more)) (',' :: (blanks ++ text)) rest := by
  have hspaced : Spells (.member key value) (skipBlank (blanks ++ text)) middle := by
    rwa [skipBlank_append hblanks, skipBlank_of_member hmember]
  exact .moreMembers rfl hspaced hmore

theorem Spells.spacedNoItems (hblanks : Blanks blanks) :
    Spells (.items []) (blanks ++ ']' :: rest) rest := by
  apply Spells.noItems
  rw [skipBlank_append hblanks]
  rfl

theorem Spells.spacedNoMembers (hblanks : Blanks blanks) :
    Spells (.members []) (blanks ++ '}' :: rest) rest := by
  apply Spells.noMembers
  rw [skipBlank_append hblanks]
  rfl

end Spaced

/-! ## Values -/

mutual

/-- The decimals in a value are written as decimals are. -/
def WellWritten : Json → Prop
  | decimal literal => IsDecimal literal.toList
  | array items => ItemsWellWritten items
  | object members => MembersWellWritten members
  | _ => True

def ItemsWellWritten : List Json → Prop
  | [] => True
  | item :: rest => item.WellWritten ∧ ItemsWellWritten rest

def MembersWellWritten : List (String × Json) → Prop
  | [] => True
  | (_, value) :: rest => value.WellWritten ∧ MembersWellWritten rest

end

theorem itemsWellWritten_iff {items : List Json} :
    ItemsWellWritten items ↔ ∀ item ∈ items, item.WellWritten := by
  induction items with
  | nil => simp [ItemsWellWritten]
  | cons item rest ih => simp [ItemsWellWritten, ih]

theorem membersWellWritten_append {members others : List (String × Json)} :
    MembersWellWritten (members ++ others) ↔
      MembersWellWritten members ∧ MembersWellWritten others := by
  induction members with
  | nil => simp [MembersWellWritten]
  | cons member rest ih => simp [MembersWellWritten, ih, and_assoc]

theorem endsNumber_compactItems (items : List Json) (rest : List Char) :
    EndsNumber (compactItems items ++ rest) := by
  cases items with
  | nil => exact endsNumber_cons (by decide) _
  | cons item more => exact endsNumber_cons (by decide) _

theorem endsNumber_compactMembers (members : List (String × Json)) (rest : List Char) :
    EndsNumber (compactMembers members ++ rest) := by
  cases members with
  | nil => exact endsNumber_cons (by decide) _
  | cons member more => exact endsNumber_cons (by decide) _

theorem endsNumber_prettyItems (depth : Nat) (items : List Json) (rest : List Char) :
    EndsNumber (prettyItems depth items ++ rest) := by
  cases items with
  | nil => exact endsNumber_cons (by decide) _
  | cons item more => exact endsNumber_cons (by decide) _

theorem endsNumber_prettyMembers (depth : Nat) (members : List (String × Json))
    (rest : List Char) : EndsNumber (prettyMembers depth members ++ rest) := by
  cases members with
  | nil => exact endsNumber_cons (by decide) _
  | cons member more => exact endsNumber_cons (by decide) _

mutual

theorem spells_compact (value : Json) (rest : List Char) (hwritten : value.WellWritten)
    (hrest : EndsNumber rest) : Spells (.value value) (value.compact ++ rest) rest := by
  match value with
  | null => exact .null
  | bool true => exact .yes
  | bool false => exact .no
  | integer number =>
      exact spells_number (spellsNumber_toString number) hrest
  | decimal literal => exact spells_number (.decimal hwritten) hrest
  | string text =>
      rw [compact, quoted_append]
      exact .string (spellsCharacters_escaped _ _)
  | array [] => exact .emptyArray rfl
  | array (first :: more) =>
      have hfirst := spells_compact first _ hwritten.1 (endsNumber_compactItems more rest)
      have hmore := spells_compactItems more rest hwritten.2
      simpa [compact] using Spells.spacedArray blanks_nil hfirst hmore
  | object [] => exact .emptyObject rfl
  | object ((key, first) :: more) =>
      have hfirst := spells_compact first _ hwritten.1 (endsNumber_compactMembers more rest)
      have hmore := spells_compactMembers more rest hwritten.2
      have hmember : Spells (.member key first) _ _ := .spacedMember blanks_nil hfirst
      simpa [compact] using Spells.spacedObject blanks_nil hmember hmore

theorem spells_compactItems (items : List Json) (rest : List Char)
    (hwritten : ItemsWellWritten items) :
    Spells (.items items) (compactItems items ++ rest) rest := by
  match items with
  | [] => exact .noItems rfl
  | item :: more =>
      have hitem := spells_compact item _ hwritten.1 (endsNumber_compactItems more rest)
      have hmore := spells_compactItems more rest hwritten.2
      simpa [compactItems] using Spells.spacedItem blanks_nil hitem hmore

theorem spells_compactMembers (members : List (String × Json)) (rest : List Char)
    (hwritten : MembersWellWritten members) :
    Spells (.members members) (compactMembers members ++ rest) rest := by
  match members with
  | [] => exact .noMembers rfl
  | (key, value) :: more =>
      have hvalue := spells_compact value _ hwritten.1 (endsNumber_compactMembers more rest)
      have hmore := spells_compactMembers more rest hwritten.2
      have hmember : Spells (.member key value) _ _ := .spacedMember blanks_nil hvalue
      simpa [compactMembers] using Spells.spacedMembers blanks_nil hmember hmore

end

mutual

theorem spells_prettyAt (depth : Nat) (value : Json) (rest : List Char)
    (hwritten : value.WellWritten) (hrest : EndsNumber rest) :
    Spells (.value value) (prettyAt depth value ++ rest) rest := by
  match value with
  | null => exact .null
  | bool true => exact .yes
  | bool false => exact .no
  | integer number =>
      exact spells_number (spellsNumber_toString number) hrest
  | decimal literal => exact spells_number (.decimal hwritten) hrest
  | string text =>
      rw [prettyAt, quoted_append]
      exact .string (spellsCharacters_escaped _ _)
  | array [] => exact .emptyArray rfl
  | array (first :: more) =>
      have hfirst := spells_prettyAt (depth + 1) first _ hwritten.1
        (endsNumber_prettyItems depth more rest)
      have hmore := spells_prettyItems depth more rest hwritten.2
      simpa [prettyAt] using Spells.spacedArray (blanks_freshLine (depth + 1)) hfirst hmore
  | object [] => exact .emptyObject rfl
  | object ((key, first) :: more) =>
      have hfirst := spells_prettyAt (depth + 1) first _ hwritten.1
        (endsNumber_prettyMembers depth more rest)
      have hmore := spells_prettyMembers depth more rest hwritten.2
      have hmember : Spells (.member key first) _ _ := .spacedMember blanks_space hfirst
      simpa [prettyAt] using Spells.spacedObject (blanks_freshLine (depth + 1)) hmember hmore

theorem spells_prettyItems (depth : Nat) (items : List Json) (rest : List Char)
    (hwritten : ItemsWellWritten items) :
    Spells (.items items) (prettyItems depth items ++ rest) rest := by
  match items with
  | [] => simpa [prettyItems] using Spells.spacedNoItems (blanks_freshLine depth)
  | item :: more =>
      have hitem := spells_prettyAt (depth + 1) item _ hwritten.1
        (endsNumber_prettyItems depth more rest)
      have hmore := spells_prettyItems depth more rest hwritten.2
      simpa [prettyItems] using Spells.spacedItem (blanks_freshLine (depth + 1)) hitem hmore

theorem spells_prettyMembers (depth : Nat) (members : List (String × Json))
    (rest : List Char) (hwritten : MembersWellWritten members) :
    Spells (.members members) (prettyMembers depth members ++ rest) rest := by
  match members with
  | [] => simpa [prettyMembers] using Spells.spacedNoMembers (blanks_freshLine depth)
  | (key, value) :: more =>
      have hvalue := spells_prettyAt (depth + 1) value _ hwritten.1
        (endsNumber_prettyMembers depth more rest)
      have hmore := spells_prettyMembers depth more rest hwritten.2
      have hmember : Spells (.member key value) _ _ := .spacedMember blanks_space hvalue
      simpa [prettyMembers] using
        Spells.spacedMembers (blanks_freshLine (depth + 1)) hmember hmore

end

theorem denotes_of_spells {value : Json} {text : List Char}
    (hspells : Spells (.value value) text []) : Denotes text value := by
  refine ⟨[], ?_, rfl⟩
  rwa [skipBlank_of_value hspells]

theorem denotes_compact {value : Json} (hwritten : value.WellWritten) :
    Denotes value.compact value := by
  have hspells := spells_compact value [] hwritten endsNumber_nil
  rw [List.append_nil] at hspells
  exact denotes_of_spells hspells

theorem denotes_pretty {value : Json} (hwritten : value.WellWritten) :
    Denotes value.pretty value := by
  have hspells := spells_prettyAt 0 value [] hwritten endsNumber_nil
  rw [List.append_nil] at hspells
  exact denotes_of_spells hspells

end ErrorTaxonomy.Json
