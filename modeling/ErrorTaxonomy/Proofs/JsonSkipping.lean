import ErrorTaxonomy.Json.Reader
import ErrorTaxonomy.Proofs.FirstFailure
import ErrorTaxonomy.Proofs.JsonLayouts
import Mathlib.Data.List.DropRight

/-!
# Scanning and skipping JSON

What a text spells is what the scanner reads off its front, and skipping a value leaves the
text exactly where the value ends.  A skipped string is looked at escape by escape, so two
escapes for one character are two steps; a value is skipped with fuel for as many levels as
there are characters, which is more than it can have.
-/

namespace ErrorTaxonomy.Json

section Strings

variable {text middle rest : List Char}

theorem length_skipBlank_le (text : List Char) : (skipBlank text).length ≤ text.length :=
  (List.dropWhile_sublist _).length_le

theorem skipBlank_skipBlank (text : List Char) : skipBlank (skipBlank text) = skipBlank text :=
  List.dropWhile_idempotent isBlank text

theorem SpellsEscape.length_lt {c : Char} (hescape : SpellsEscape c text rest) :
    rest.length < text.length := by
  cases hescape <;> simp <;> omega

theorem SpellsCharacters.length_lt {characters : List Char}
    (hspells : SpellsCharacters characters text rest) : rest.length < text.length := by
  induction hspells with
  | closed => simp
  | plain _ _ _ _ ih => exact Nat.lt_succ_of_lt ih
  | escaped hescape _ ih => exact Nat.lt_succ_of_lt (Nat.lt_trans ih hescape.length_lt)

theorem scanHex_of_hexQuad? {a b c d : Char} {unit : Nat} (hunit : hexQuad? a b c d = some unit)
    (rest : List Char) : scanHex (a :: b :: c :: d :: rest) = .ok (unit, rest) := by
  rw [scanHex, hunit]

theorem scanEscape_of_spells {c : Char} (hescape : SpellsEscape c text rest) :
    scanEscape text = .ok (c, rest) := by
  cases hescape with
  | short hletter => rw [scanEscape, hletter]
  | single hunit hleading htrailing =>
      have hnumbered : ∀ more, scanEscape ('u' :: more) = scanNumberedEscape more := fun _ => rfl
      rw [hnumbered, scanNumberedEscape, scanHex_of_hexQuad? hunit, ok_bind]
      simp only [hleading, htrailing]
      rfl
  | double hunit hleading hsecond htrailing =>
      have hnumbered : ∀ more, scanEscape ('u' :: more) = scanNumberedEscape more := fun _ => rfl
      have hboth : ∀ unit, isLeadingSurrogate unit = true → isTrailingSurrogate unit = false := by
        intro unit hunit
        simp only [isLeadingSurrogate, Bool.and_eq_true, decide_eq_true_eq] at hunit
        simp only [isTrailingSurrogate, Bool.and_eq_false_iff, decide_eq_false_iff_not]
        omega
      rw [hnumbered, scanNumberedEscape, scanHex_of_hexQuad? hunit, ok_bind]
      simp only [hleading, hboth _ hleading, scanHex_of_hexQuad? hsecond, ok_bind, htrailing]
      rfl

theorem scanCharacters_of_spells {characters : List Char}
    (hspells : SpellsCharacters characters text rest) {fuel : Nat} (hfuel : text.length < fuel) :
    scanCharacters fuel text = .ok (characters, rest) := by
  induction hspells generalizing fuel with
  | closed =>
      cases fuel with
      | zero => simp at hfuel
      | succ fuel => rfl
  | plain hquote hbackslash hprintable _ ih =>
      cases fuel with
      | zero => simp at hfuel
      | succ fuel =>
          rw [List.length_cons, Nat.succ_lt_succ_iff] at hfuel
          rw [scanCharacters, if_neg hquote, if_neg hbackslash, if_neg (by omega), ih hfuel]
          rfl
  | escaped hescape _ ih =>
      cases fuel with
      | zero => simp at hfuel
      | succ fuel =>
          rw [List.length_cons, Nat.succ_lt_succ_iff] at hfuel
          have hmore := ih (Nat.lt_trans hescape.length_lt hfuel)
          rw [scanCharacters, if_neg (by decide), if_pos rfl, scanEscape_of_spells hescape]
          simp only [ok_bind, hmore]
          rfl

theorem scanString_of_spells {content : String}
    (hspells : SpellsCharacters content.toList text rest) :
    scanString text = .ok (content, rest) := by
  rw [scanString, scanCharacters_of_spells hspells (Nat.lt_succ_self _)]
  simp only [ok_bind, String.ofList_toList]
  rfl

/-- An escape of two halves takes two steps, each with the fuel of its first character. -/
theorem skipCharacters_of_escape {c : Char} (hescape : SpellsEscape c text middle)
    (hmiddle : ∀ fuel, middle.length < fuel → skipCharacters fuel middle = .ok rest)
    {fuel : Nat} (hfuel : text.length < fuel) :
    skipCharacters (fuel + 1) ('\\' :: text) = .ok rest := by
  have hstep : ∀ fuel more, skipCharacters (fuel + 1) ('\\' :: more) =
      skipEscape more >>= skipCharacters fuel := fun _ _ => rfl
  have hnumbered : ∀ more, skipEscape ('u' :: more) =
      scanHex more >>= fun scanned => pure scanned.2 := fun _ => rfl
  cases hescape with
  | short hletter =>
      rw [hstep, skipEscape, hletter]
      exact hmiddle fuel (Nat.lt_of_succ_lt hfuel)
  | single hunit _ _ =>
      rw [hstep, hnumbered, scanHex_of_hexQuad? hunit]
      exact hmiddle fuel (by simp at hfuel; omega)
  | double hunit _ hsecond _ =>
      rw [hstep, hnumbered, scanHex_of_hexQuad? hunit]
      cases fuel with
      | zero => simp at hfuel
      | succ fuel =>
          rw [ok_bind]
          change skipCharacters (fuel + 1) ('\\' :: _) = _
          rw [hstep, hnumbered, scanHex_of_hexQuad? hsecond]
          exact hmiddle fuel (by simp at hfuel; omega)

theorem skipCharacters_of_spells {characters : List Char}
    (hspells : SpellsCharacters characters text rest) {fuel : Nat} (hfuel : text.length < fuel) :
    skipCharacters fuel text = .ok rest := by
  induction hspells generalizing fuel with
  | closed =>
      cases fuel with
      | zero => simp at hfuel
      | succ fuel => rfl
  | plain hquote hbackslash hprintable _ ih =>
      cases fuel with
      | zero => simp at hfuel
      | succ fuel =>
          rw [List.length_cons, Nat.succ_lt_succ_iff] at hfuel
          rw [skipCharacters, if_neg hquote, if_neg hbackslash, if_neg (by omega), ih hfuel]
  | escaped hescape _ ih =>
      cases fuel with
      | zero => simp at hfuel
      | succ fuel =>
          rw [List.length_cons, Nat.succ_lt_succ_iff] at hfuel
          exact skipCharacters_of_escape hescape (fun _ hmiddle => ih hmiddle) hfuel

theorem skipString_of_spells {characters : List Char}
    (hspells : SpellsCharacters characters text rest) : skipString text = .ok rest :=
  skipCharacters_of_spells hspells (Nat.lt_succ_self _)

end Strings

/-! ## Numbers -/

section Numbers

variable {digits text rest : List Char}

def NoDigit (rest : List Char) : Prop :=
  ∀ c ∈ rest.head?, isDigit c = false

theorem noDigit_of_endsNumber (hrest : EndsNumber rest) : NoDigit rest := by
  intro c hc
  have hnumeral := hrest c hc
  simp only [isNumeralChar, Bool.or_eq_false_iff] at hnumeral
  exact hnumeral.1.1.1.1.1

theorem dropWhile_digits (hdigits : ∀ c ∈ digits, isDigit c = true) (hrest : NoDigit rest) :
    (digits ++ rest).dropWhile isDigit = rest := by
  rw [List.dropWhile_append_of_pos hdigits]
  cases rest with
  | nil => rfl
  | cons c rest => rw [List.dropWhile_cons_of_neg (by simp [hrest c rfl])]

theorem ne_of_isDigit {c other : Char} (hc : isDigit c = true) (hother : isDigit other = false) :
    c ≠ other := by
  intro heq
  rw [heq, hother] at hc
  cases hc

theorem skipExponent_append {sign : List Char}
    (hsign : sign = [] ∨ sign = ['+'] ∨ sign = ['-']) (hne : digits ≠ [])
    (hdigits : ∀ c ∈ digits, isDigit c = true) (hrest : NoDigit rest) :
    skipExponent (sign ++ digits ++ rest) = .ok rest := by
  cases digits with
  | nil => exact absurd rfl hne
  | cons c digits =>
      have hall := List.forall_mem_cons.mp hdigits
      have hdrop := dropWhile_digits hall.2 hrest
      rcases hsign with rfl | rfl | rfl
      · have hplus : c ≠ '+' := ne_of_isDigit hall.1 (by decide)
        have hminus : c ≠ '-' := ne_of_isDigit hall.1 (by decide)
        simp [skipExponent, hplus, hminus, hall.1, hdrop]
      · simp [skipExponent, hall.1, hdrop]
      · simp [skipExponent, hall.1, hdrop]

theorem skipExponentIfAny_append {exponent : List Char}
    (hexponent : exponent = [] ∨ IsExponent exponent) (hrest : EndsNumber rest) :
    skipExponentIfAny (exponent ++ rest) = .ok rest := by
  have hnoDigit := noDigit_of_endsNumber hrest
  rcases hexponent with rfl | ⟨mark, sign, digits, hmark, hsign, hne, hdigits, rfl⟩
  · rw [List.nil_append, skipExponentIfAny.eq_def]
    split
    · have hmark := hrest 'e' rfl
      simp [isNumeralChar] at hmark
    · have hmark := hrest 'E' rfl
      simp [isNumeralChar] at hmark
    · rfl
  · rcases hmark with rfl | rfl
    · exact skipExponent_append hsign hne hdigits hnoDigit
    · exact skipExponent_append hsign hne hdigits hnoDigit

theorem noDigit_exponent_append {exponent : List Char}
    (hexponent : exponent = [] ∨ IsExponent exponent) (hrest : EndsNumber rest) :
    NoDigit (exponent ++ rest) := by
  rcases hexponent with rfl | ⟨mark, sign, digits, hmark, hsign, hne, hdigits, rfl⟩
  · exact noDigit_of_endsNumber hrest
  · rcases hmark with rfl | rfl <;> simp [NoDigit, isDigit]

theorem skipNumberEnd_append {fraction exponent : List Char}
    (hfraction : fraction = [] ∨ IsFraction fraction)
    (hexponent : exponent = [] ∨ IsExponent exponent) (hrest : EndsNumber rest) :
    skipNumberEnd (fraction ++ exponent ++ rest) = .ok rest := by
  rcases hfraction with rfl | ⟨digits, hne, hdigits, rfl⟩
  · rw [List.nil_append, skipNumberEnd.eq_def]
    split
    · next heq =>
        -- a point begins neither an exponent nor what ends a number
        rcases hexponent with rfl | ⟨mark, sign, digits, hmark, hsign, hne, hdigits, rfl⟩
        · rw [List.nil_append] at heq
          have hpoint := hrest '.' (by rw [heq]; rfl)
          simp [isNumeralChar] at hpoint
        · rcases hmark with rfl | rfl <;> simp at heq
    · exact skipExponentIfAny_append hexponent hrest
  · cases digits with
    | nil => exact absurd rfl hne
    | cons c digits =>
        have hall := List.forall_mem_cons.mp hdigits
        have hdrop := dropWhile_digits hall.2 (noDigit_exponent_append hexponent hrest)
        simp only [List.cons_append, List.append_assoc, skipNumberEnd, hall.1, if_true, hdrop]
        exact skipExponentIfAny_append hexponent hrest

theorem skipNumber_append (hdigits : IsWhole digits) (hrest : NoDigit rest) :
    skipNumber (digits ++ rest) = skipNumberEnd rest := by
  rcases hdigits with ⟨hne, hall, hzero⟩
  cases digits with
  | nil => exact absurd rfl hne
  | cons c digits =>
      have hall := List.forall_mem_cons.mp hall
      simp only [List.cons_append, skipNumber]
      by_cases hc : c = '0'
      · have hsingle : digits = [] := by
          simpa [hc] using hzero
        rw [if_pos hc, hsingle, List.nil_append]
        cases rest with
        | nil => rfl
        | cons d rest => simp [hrest d rfl]
      · rw [if_neg hc, if_pos hall.1, dropWhile_digits hall.2 hrest]

theorem skipScalar_of_digit {c : Char} (hc : isDigit c = true) (more : List Char) :
    skipScalar (c :: more) = skipNumber (c :: more) := by
  have hne : ∀ other, isDigit other = false → c ≠ other := fun _ => ne_of_isDigit hc
  rw [skipScalar, if_neg (hne 'n' (by decide)), if_neg (hne 't' (by decide)),
    if_neg (hne 'f' (by decide)), if_neg (hne '"' (by decide)), if_neg (hne '-' (by decide)),
    if_pos hc]

/-- The text of any number, with its parts. -/
theorem exists_parts_of_spellsNumber {value : Json} (hspells : SpellsNumber value text) :
    ∃ whole fraction exponent, IsInteger whole ∧ (fraction = [] ∨ IsFraction fraction) ∧
      (exponent = [] ∨ IsExponent exponent) ∧ text = whole ++ fraction ++ exponent := by
  cases hspells with
  | integer hinteger => exact ⟨text, [], [], hinteger, .inl rfl, .inl rfl, by simp⟩
  | decimal hdecimal =>
      rcases hdecimal with ⟨whole, fraction, exponent, hwhole, hfraction, hexponent, _, htext⟩
      exact ⟨whole, fraction, exponent, hwhole, hfraction, hexponent, htext⟩

theorem noDigit_fraction_append {fraction exponent : List Char}
    (hfraction : fraction = [] ∨ IsFraction fraction)
    (hexponent : exponent = [] ∨ IsExponent exponent) (hrest : EndsNumber rest) :
    NoDigit (fraction ++ exponent ++ rest) := by
  rcases hfraction with rfl | ⟨digits, _, _, rfl⟩
  · exact noDigit_exponent_append hexponent hrest
  · simp [NoDigit, isDigit]

theorem skipScalar_of_spellsNumber {value : Json} (hspells : SpellsNumber value text)
    (hrest : EndsNumber rest) : skipScalar (text ++ rest) = .ok rest := by
  rcases exists_parts_of_spellsNumber hspells with
    ⟨whole, fraction, exponent, hwhole, hfraction, hexponent, rfl⟩
  have hend := skipNumberEnd_append hfraction hexponent hrest
  have hnoDigit := noDigit_fraction_append hfraction hexponent hrest
  rw [List.append_assoc, List.append_assoc, ← List.append_assoc fraction]
  rcases hwhole with hwhole | ⟨digits, hwhole, rfl⟩
  · rw [← hend, ← skipNumber_append hwhole hnoDigit]
    cases whole with
    | nil => exact absurd rfl hwhole.1
    | cons c digits => exact skipScalar_of_digit (hwhole.2.1 c List.mem_cons_self) _
  · rw [← hend, ← skipNumber_append hwhole hnoDigit]
    rfl

end Numbers

/-! ## Values -/

theorem length_lt_of_skipBlank_eq {c : Char} {text rest : List Char}
    (hskip : skipBlank text = c :: rest) : rest.length < text.length := by
  have hle := length_skipBlank_le text
  rw [hskip, List.length_cons] at hle
  exact hle

theorem Spells.length_lt {piece : Piece} {text rest : List Char}
    (hspells : Spells piece text rest) : rest.length < text.length := by
  induction hspells with
  | null => simp only [List.length_cons]; omega
  | yes => simp only [List.length_cons]; omega
  | no => simp only [List.length_cons]; omega
  | @number value text hnumber =>
      have hsplit := congrArg List.length
        (List.takeWhile_append_dropWhile (p := isNumeralChar) (l := text))
      have hne := List.length_pos_of_ne_nil hnumber.ne_nil
      rw [List.length_append] at hsplit
      omega
  | string hcharacters => exact Nat.lt_succ_of_lt hcharacters.length_lt
  | emptyArray hclosed => exact Nat.lt_succ_of_lt (length_lt_of_skipBlank_eq hclosed)
  | @array _ _ text _ _ _ _ ihfirst ihmore =>
      have hle := length_skipBlank_le text
      rw [List.length_cons]
      omega
  | emptyObject hclosed => exact Nat.lt_succ_of_lt (length_lt_of_skipBlank_eq hclosed)
  | @object _ _ _ text _ _ _ _ ihfirst ihmore =>
      have hle := length_skipBlank_le text
      rw [List.length_cons]
      omega
  | @member _ _ _ _ colon _ hkey hcolon _ ih =>
      have hshorter := hkey.length_lt
      have hcolon := length_lt_of_skipBlank_eq hcolon
      have hle := length_skipBlank_le colon
      rw [List.length_cons]
      omega
  | noItems hclosed => exact length_lt_of_skipBlank_eq hclosed
  | @item _ _ _ comma _ _ hcomma _ _ ihitem ihmore =>
      have hcomma := length_lt_of_skipBlank_eq hcomma
      have hle := length_skipBlank_le comma
      omega
  | noMembers hclosed => exact length_lt_of_skipBlank_eq hclosed
  | @moreMembers _ _ _ _ comma _ _ hcomma _ _ ihmember ihmore =>
      have hcomma := length_lt_of_skipBlank_eq hcomma
      have hle := length_skipBlank_le comma
      omega

/-- Skipping what a piece of a text spells, blanks in front of it included, leaves the rest. -/
def Skips : Piece → List Char → List Char → Prop
  | .value _, text, rest => ∀ fuel spaced, text.length < fuel → skipBlank spaced = text →
      skipValue fuel spaced = .ok rest
  | .member _ _, text, rest => ∀ fuel spaced, text.length < fuel → skipBlank spaced = text →
      skipMember (skipValue fuel) spaced = .ok rest
  | .items _, text, rest => ∀ fuel steps, text.length < fuel → text.length < steps →
      skipItems (skipValue fuel) steps false text = .ok rest
  | .members _, text, rest => ∀ fuel steps, text.length < fuel → text.length < steps →
      skipMembers (skipValue fuel) steps false text = .ok rest

section Steps

variable {skipItem : List Char → Except Failure (List Char)} {steps : Nat}
  {text middle rest : List Char}

theorem scanColon_of_eq (hcolon : skipBlank text = ':' :: rest) : scanColon text = .ok rest := by
  simp [scanColon, hcolon]

theorem Spells.head_ne_bracket {value : Json} {c : Char}
    (hspells : Spells (.value value) (c :: text) rest) : c ≠ ']' := by
  intro heq
  rw [heq] at hspells
  exact not_spells_bracket hspells

theorem skipItems_of_bracket {first : Bool} (hclosed : skipBlank text = ']' :: rest) :
    skipItems skipItem (steps + 1) first text = .ok rest := by
  simp [skipItems, hclosed]

theorem skipItems_of_first {value : Json}
    (hspells : Spells (.value value) (skipBlank text) middle)
    (hskip : skipItem (skipBlank text) = .ok middle) :
    skipItems skipItem (steps + 1) true text = skipItems skipItem steps false middle := by
  cases htext : skipBlank text with
  | nil =>
      rw [htext] at hspells
      exact absurd hspells.length_lt (Nat.not_lt_zero _)
  | cons c more =>
      rw [htext] at hspells hskip
      simp [skipItems, htext, hspells.head_ne_bracket, hskip, ok_bind]

theorem skipItems_of_comma {comma : List Char} (hcomma : skipBlank text = ',' :: comma)
    (hskip : skipItem comma = .ok middle) :
    skipItems skipItem (steps + 1) false text = skipItems skipItem steps false middle := by
  simp [skipItems, hcomma, hskip, ok_bind]

theorem skipMembers_of_brace {first : Bool} (hclosed : skipBlank text = '}' :: rest) :
    skipMembers skipItem (steps + 1) first text = .ok rest := by
  simp [skipMembers, hclosed]

theorem skipMembers_of_first {key : String} {value : Json}
    (hspells : Spells (.member key value) (skipBlank text) middle)
    (hskip : skipMember skipItem (skipBlank text) = .ok middle) :
    skipMembers skipItem (steps + 1) true text = skipMembers skipItem steps false middle := by
  generalize htext : skipBlank text = spelled at hspells hskip
  cases hspells with
  | member _ _ _ => simp [skipMembers, htext, hskip, ok_bind]

theorem skipMembers_of_comma {comma : List Char} (hcomma : skipBlank text = ',' :: comma)
    (hskip : skipMember skipItem comma = .ok middle) :
    skipMembers skipItem (steps + 1) false text = skipMembers skipItem steps false middle := by
  simp [skipMembers, hcomma, hskip, ok_bind]

theorem skipValue_of_scalar {fuel : Nat} {spaced : List Char} {c : Char}
    (hspaced : skipBlank spaced = c :: text) (hbracket : c ≠ '[') (hbrace : c ≠ '{') :
    skipValue (fuel + 1) spaced = skipScalar (c :: text) := by
  simp [skipValue, hspaced, hbracket, hbrace]

end Steps

theorem skipScalar_of_spellsNumber_takeWhile {value : Json} {text : List Char}
    (hspells : SpellsNumber value (text.takeWhile isNumeralChar)) :
    skipScalar text = .ok (text.dropWhile isNumeralChar) := by
  have hend : EndsNumber (text.dropWhile isNumeralChar) := by
    intro c hc
    have hhead := List.head?_dropWhile_not isNumeralChar text
    rw [Option.mem_def.mp hc] at hhead
    exact hhead
  have hskip := skipScalar_of_spellsNumber hspells hend
  rwa [List.takeWhile_append_dropWhile] at hskip

theorem skips_of_scalar {value : Json} {c : Char} {text rest : List Char}
    (hbracket : c ≠ '[') (hbrace : c ≠ '{') (hskip : skipScalar (c :: text) = .ok rest) :
    Skips (.value value) (c :: text) rest := by
  intro fuel spaced hfuel hspaced
  cases fuel with
  | zero => exact absurd hfuel (Nat.not_lt_zero _)
  | succ fuel => rw [skipValue_of_scalar hspaced hbracket hbrace, hskip]

/-- A value is left behind whatever it is, given fuel for more levels than it has signs. -/
theorem Spells.skips {piece : Piece} {text rest : List Char} (hspells : Spells piece text rest) :
    Skips piece text rest := by
  induction hspells with
  | null => exact skips_of_scalar (by decide) (by decide) rfl
  | yes => exact skips_of_scalar (by decide) (by decide) rfl
  | no => exact skips_of_scalar (by decide) (by decide) rfl
  | @number value text hnumber =>
      have hskip := skipScalar_of_spellsNumber_takeWhile hnumber
      cases text with
      | nil => exact absurd rfl hnumber.ne_nil
      | cons c more =>
          apply skips_of_scalar _ _ hskip
          · rintro rfl
            exact not_spellsNumber (by decide) hnumber
          · rintro rfl
            exact not_spellsNumber (by decide) hnumber
  | string hcharacters =>
      exact skips_of_scalar (by decide) (by decide) (skipString_of_spells hcharacters)
  | emptyArray hclosed =>
      intro fuel spaced hfuel hspaced
      cases fuel with
      | zero => exact absurd hfuel (Nat.not_lt_zero _)
      | succ fuel =>
          simp only [skipValue, hspaced]
          exact skipItems_of_bracket hclosed
  | @array _ _ text middle _ hfirst hmore ihfirst ihmore =>
      intro fuel spaced hfuel hspaced
      cases fuel with
      | zero => exact absurd hfuel (Nat.not_lt_zero _)
      | succ fuel =>
          have hle := length_skipBlank_le text
          have hlt := hfirst.length_lt
          rw [List.length_cons] at hfuel
          have hskip := ihfirst fuel (skipBlank text) (by omega) (skipBlank_skipBlank text)
          simp only [skipValue, hspaced]
          rw [if_pos trivial, skipItems_of_first hfirst hskip]
          exact ihmore fuel text.length (by omega) (by omega)
  | emptyObject hclosed =>
      intro fuel spaced hfuel hspaced
      cases fuel with
      | zero => exact absurd hfuel (Nat.not_lt_zero _)
      | succ fuel =>
          simp only [skipValue, hspaced]
          exact skipMembers_of_brace hclosed
  | @object _ _ _ text middle _ hfirst hmore ihfirst ihmore =>
      intro fuel spaced hfuel hspaced
      cases fuel with
      | zero => exact absurd hfuel (Nat.not_lt_zero _)
      | succ fuel =>
          have hle := length_skipBlank_le text
          have hlt := hfirst.length_lt
          rw [List.length_cons] at hfuel
          have hskip := ihfirst fuel (skipBlank text) (by omega) (skipBlank_skipBlank text)
          simp only [skipValue, hspaced]
          rw [if_neg (by decide), if_pos trivial, skipMembers_of_first hfirst hskip]
          exact ihmore fuel text.length (by omega) (by omega)
  | @member _ _ text middle colon _ hkey hcolon _ ih =>
      intro fuel spaced hfuel hspaced
      have hshorter := hkey.length_lt
      have hcolonShorter := length_lt_of_skipBlank_eq hcolon
      have hle := length_skipBlank_le colon
      rw [List.length_cons] at hfuel
      have hskip := ih fuel colon (by omega) rfl
      simp only [skipMember, hspaced]
      rw [if_pos trivial, skipString_of_spells hkey, ok_bind, scanColon_of_eq hcolon, ok_bind,
        hskip]
  | noItems hclosed =>
      intro fuel steps hfuel hsteps
      cases steps with
      | zero => exact absurd hsteps (Nat.not_lt_zero _)
      | succ steps => exact skipItems_of_bracket hclosed
  | @item _ _ text comma _ _ hcomma hitem _ ihitem ihmore =>
      intro fuel steps hfuel hsteps
      cases steps with
      | zero => exact absurd hsteps (Nat.not_lt_zero _)
      | succ steps =>
          have hcommaShorter := length_lt_of_skipBlank_eq hcomma
          have hle := length_skipBlank_le comma
          have hlt := hitem.length_lt
          rw [skipItems_of_comma hcomma (ihitem fuel comma (by omega) rfl)]
          exact ihmore fuel steps (by omega) (by omega)
  | noMembers hclosed =>
      intro fuel steps hfuel hsteps
      cases steps with
      | zero => exact absurd hsteps (Nat.not_lt_zero _)
      | succ steps => exact skipMembers_of_brace hclosed
  | @moreMembers _ _ _ text comma _ _ hcomma hmember _ ihmember ihmore =>
      intro fuel steps hfuel hsteps
      cases steps with
      | zero => exact absurd hsteps (Nat.not_lt_zero _)
      | succ steps =>
          have hcommaShorter := length_lt_of_skipBlank_eq hcomma
          have hle := length_skipBlank_le comma
          have hlt := hmember.length_lt
          rw [skipMembers_of_comma hcomma (ihmember fuel comma (by omega) rfl)]
          exact ihmore fuel steps (by omega) (by omega)

end ErrorTaxonomy.Json
