import ErrorTaxonomy.Proofs.JsonSkipping
import ErrorTaxonomy.Yaml.ScalarScanner
import Mathlib.Tactic.SplitIfs

/-!
# Texts of JSON as scalars of YAML

A double quoted scalar of YAML is scanned word by word with the blanks in between, where line
breaks would be folded.  The text of a JSON string has no line breaks, and what it escapes is
escaped alike in YAML, so the words and blanks put together are the characters that it spells.
Only characters of ASCII are looked at, as others may be escaped in two halves.
-/

namespace ErrorTaxonomy.Yaml

/-- ASCII without its last character, which is no character of YAML. -/
def IsAscii (characters : List Char) : Prop :=
  ∀ c ∈ characters, c.toNat < 127

/-! ## Moving along a line -/

theorem Mark.forward_zero (mark : Mark) : mark.forward 0 = mark :=
  rfl

theorem Mark.forward_forward (mark : Mark) (first second : Nat) :
    (mark.forward first).forward second = mark.forward (first + second) := by
  simp [Mark.forward, Nat.add_assoc]

/-- A cursor further on the same line, by as many characters as the text is shorter. -/
structure Cursor.LeadsTo (cursor next : Cursor) : Prop where
  length_le : next.rest.length ≤ cursor.rest.length
  mark_eq : next.mark = cursor.mark.forward (cursor.rest.length - next.rest.length)

namespace Cursor.LeadsTo

variable {cursor middle next : Cursor}

theorem refl (cursor : Cursor) : cursor.LeadsTo cursor where
  length_le := Nat.le_refl _
  mark_eq := by rw [Nat.sub_self, Mark.forward_zero]

theorem trans (hfirst : cursor.LeadsTo middle) (hsecond : middle.LeadsTo next) :
    cursor.LeadsTo next where
  length_le := Nat.le_trans hsecond.length_le hfirst.length_le
  mark_eq := by
    have hle := hfirst.length_le
    have hle' := hsecond.length_le
    rw [hsecond.mark_eq, hfirst.mark_eq, Mark.forward_forward]
    congr 1
    omega

theorem forward {count : Nat} {rest : List Char}
    (hlength : cursor.rest.length = count + rest.length) :
    cursor.LeadsTo (cursor.forward count rest) where
  length_le := by
    rw [hlength]
    exact Nat.le_add_left _ _
  mark_eq := by
    rw [hlength, Cursor.forward, Nat.add_sub_cancel]

theorem pastFirst {c : Char} {rest : List Char} (hrest : cursor.rest = c :: rest) :
    cursor.LeadsTo (cursor.forward 1 rest) :=
  .forward (by rw [hrest, List.length_cons, Nat.add_comm])

/-- Which cursor that is depends on the text that is left only. -/
theorem unique (hleads : cursor.LeadsTo next) (hother : cursor.LeadsTo middle)
    (hrest : next.rest = middle.rest) : next = middle := by
  have hmark := hleads.mark_eq
  rw [hrest, ← hother.mark_eq] at hmark
  cases next
  cases middle
  exact congr (congrArg Cursor.mk hmark) hrest

theorem column_ne_zero (hleads : cursor.LeadsTo next) (hcolumn : cursor.mark.column ≠ 0) :
    next.mark.column ≠ 0 := by
  rw [hleads.mark_eq]
  simp only [Mark.forward]
  omega

end Cursor.LeadsTo

/-! ## Characters -/

theorem ne_of_toNat_lt {c other : Char} (hlt : other.toNat < c.toNat) : c ≠ other := by
  intro heq
  rw [heq] at hlt
  exact Nat.lt_irrefl _ hlt

theorem isBreak_of_isAscii {c : Char} (hprintable : 32 ≤ c.toNat) (hascii : c.toNat < 127) :
    isBreak c = false := by
  have hnewline : c ≠ '\n' := ne_of_toNat_lt (Nat.lt_of_lt_of_le (by decide) hprintable)
  have hreturn : c ≠ '\r' := ne_of_toNat_lt (Nat.lt_of_lt_of_le (by decide) hprintable)
  simp only [isBreak, hnewline, hreturn, decide_false, Bool.false_or, Bool.or_eq_false_iff,
    decide_eq_false_iff_not]
  omega

theorem isBlank_of_isAscii {c : Char} (hprintable : 32 ≤ c.toNat) (hspace : c ≠ ' ') :
    isBlank c = false := by
  have htab : c ≠ '\t' := ne_of_toNat_lt (Nat.lt_of_lt_of_le (by decide) hprintable)
  simp [isBlank, hspace, htab]

theorem isBlankOrBreak_of_isAscii {c : Char} (hprintable : 32 ≤ c.toNat)
    (hascii : c.toNat < 127) (hspace : c ≠ ' ') : isBlankOrBreak c = false := by
  rw [isBlankOrBreak, isBlank_of_isAscii hprintable hspace, isBreak_of_isAscii hprintable hascii]
  rfl

theorem pastBreak?_of_not_isBreak {cursor : Cursor} {c : Char} {rest : List Char}
    (hrest : cursor.rest = c :: rest) (hbreak : isBreak c = false) : cursor.pastBreak? = none := by
  have hreturn : c ≠ '\r' := by
    intro heq
    rw [heq] at hbreak
    exact absurd hbreak (by decide)
  rw [Cursor.pastBreak?, hrest]
  split
  · next heq => exact absurd (List.cons.inj heq).1 hreturn
  · next heq =>
      rw [← (List.cons.inj heq).1, hbreak]
      rfl
  · rfl

/-! ## Escapes -/

theorem escape?_of_shortEscape? {letter c : Char} (hletter : Json.shortEscape? letter = some c) :
    escape? letter = some (.character c) ∧ isBreak letter = false := by
  unfold Json.shortEscape? at hletter
  split_ifs at hletter with h₁ h₂ h₃ h₄ h₅ h₆ h₇ h₈
  all_goals
    subst letter
    cases hletter
    exact ⟨rfl, by decide⟩

theorem hexValue?_lt {c : Char} {digit : Nat} (hdigit : Json.hexValue? c = some digit) :
    digit < 16 := by
  unfold Json.hexValue? at hdigit
  split_ifs at hdigit with hdecimal hlower hupper
  all_goals
    cases hdigit
    simp only [Char.le_def, UInt32.le_iff_toNat_le] at *
    have hvalue : c.toNat = c.val.toNat := rfl
    simp at *
    omega

theorem hexNumber?_of_hexQuad? {a b c d : Char} {unit : Nat}
    (hunit : Json.hexQuad? a b c d = some unit) (rest : List Char) :
    hexNumber? 4 0 (a :: b :: c :: d :: rest) = some (unit, rest) ∧ unit < 0x10000 := by
  simp only [Json.hexQuad?, Option.bind_eq_bind, Option.bind_eq_some_iff, Option.pure_def,
    Option.some.injEq] at hunit
  rcases hunit with ⟨first, hfirst, second, hsecond, third, hthird, fourth, hfourth, rfl⟩
  have hlt := hexValue?_lt hfirst
  have hlt' := hexValue?_lt hsecond
  have hlt'' := hexValue?_lt hthird
  have hlt''' := hexValue?_lt hfourth
  have hsame : ∀ c, hexValue? c = Json.hexValue? c := fun _ => rfl
  constructor
  · simp [hexNumber?, hsame, hfirst, hsecond, hthird, hfourth]
  · omega

theorem joinSurrogates_not_ascii {leading trailing : Nat}
    (hleading : Json.isLeadingSurrogate leading = true)
    (htrailing : Json.isTrailingSurrogate trailing = true) :
    ¬ (Json.joinSurrogates leading trailing).toNat < 127 := by
  simp only [Json.isLeadingSurrogate, Json.isTrailingSurrogate, Bool.and_eq_true,
    decide_eq_true_eq] at hleading htrailing
  have hvalid : ((leading - 0xD800) * 1024 + (trailing - 0xDC00) + 0x10000).isValidChar :=
    .inr (by omega)
  have hnumber : ∀ number (hnumber : number.isValidChar),
      (Char.ofNatAux number hnumber).toNat = number := fun _ _ => rfl
  rw [Json.joinSurrogates, Char.ofNat, dif_pos hvalid, hnumber]
  omega

theorem scanEscape_of_spells (start : Mark) {cursor : Cursor} {c : Char} {text rest : List Char}
    (hescape : Json.SpellsEscape c text rest) (hascii : c.toNat < 127)
    (hrest : cursor.rest = '\\' :: text) :
    ∃ next, next.rest = rest ∧ cursor.LeadsTo next ∧ scanEscape start cursor = .ok (c, next) := by
  cases hescape with
  | @short letter _ _ hletter =>
      refine ⟨cursor.forward 2 rest, rfl, .forward ?_, ?_⟩
      · simp only [hrest, List.length_cons]
        omega
      · simp only [scanEscape, hrest, (escape?_of_shortEscape? hletter).1]
  | @single a b c d unit _ hunit hleading htrailing =>
      have hnumber := hexNumber?_of_hexQuad? hunit rest
      have hcharacter : isCharacterNumber unit = true := by
        simp only [Json.isLeadingSurrogate, Json.isTrailingSurrogate, Bool.and_eq_false_iff,
          decide_eq_false_iff_not] at hleading htrailing
        simp only [isCharacterNumber, Bool.or_eq_true, Bool.and_eq_true, decide_eq_true_eq]
        omega
      refine ⟨cursor.forward 6 rest, rfl, .forward ?_, ?_⟩
      · simp only [hrest, List.length_cons]
        omega
      · have hletter : escape? 'u' = some (.numbered 4) := rfl
        simp only [scanEscape, hrest, hletter, hnumber.1, hcharacter, if_true]
        rfl
  | double _ hleading _ htrailing => exact absurd hascii (joinSurrogates_not_ascii hleading htrailing)

/-! ## Words and gaps -/

section Scalars

variable {characters rest : List Char} {cursor : Cursor}

/-- A word ends at a blank or at the closing quote. -/
theorem scanDoubleQuotedWord_of_spells (start : Mark) {text : List Char}
    (hspells : Json.SpellsCharacters characters text rest) (hascii : IsAscii characters)
    (htext : cursor.rest = text) {fuel : Nat} (hfuel : text.length ≤ fuel) :
    ∃ word more next, characters = word ++ more ∧
      Json.SpellsCharacters more next.rest rest ∧
      (next.rest.head? = some '"' ∨ next.rest.head? = some ' ') ∧ cursor.LeadsTo next ∧
      scanDoubleQuotedWord start fuel cursor =
        .ok { characters := word, escapesBreak := false, next } := by
  induction hspells generalizing cursor fuel with
  | @closed rest =>
      refine ⟨[], [], cursor, rfl, htext ▸ .closed, .inl (by rw [htext]; rfl), .refl cursor, ?_⟩
      cases fuel with
      | zero => rfl
      | succ fuel => simp [scanDoubleQuotedWord, htext]
  | @plain c more text rest hquote hbackslash hprintable hmore ih =>
      have hall := List.forall_mem_cons.mp hascii
      cases fuel with
      | zero => exact absurd hfuel (Nat.not_succ_le_zero _)
      | succ fuel =>
          by_cases hspace : c = ' '
          · refine ⟨[], c :: more, cursor, rfl, ?_, .inr (by rw [htext, hspace]; rfl),
              .refl cursor, ?_⟩
            · rw [htext]
              exact .plain hquote hbackslash hprintable hmore
            · simp [scanDoubleQuotedWord, htext, hspace, isBlankOrBreak, isBlank]
          · have hstep : cursor.LeadsTo (cursor.forward 1 text) := .pastFirst htext
            have henough : text.length ≤ fuel := Nat.le_of_succ_le_succ hfuel
            have hrest : (cursor.forward 1 text).rest = text := rfl
            rcases ih hall.2 hrest henough with
              ⟨word, after, next, rfl, hafter, hhead, hleads, hscan⟩
            have hinner := isBlankOrBreak_of_isAscii hprintable hall.1 hspace
            refine ⟨c :: word, after, next, rfl, hafter, hhead, hstep.trans hleads, ?_⟩
            simp only [scanDoubleQuotedWord, htext, hinner, hquote, hbackslash, hscan]
            rfl
  | @escaped c more text middle rest hescape hmore ih =>
      have hall := List.forall_mem_cons.mp hascii
      cases fuel with
      | zero => exact absurd hfuel (Nat.not_succ_le_zero _)
      | succ fuel =>
          rcases scanEscape_of_spells start hescape hall.1 htext with
            ⟨escaped, hrest, hstep, hescaped⟩
          have hlt := hescape.length_lt
          rw [List.length_cons] at hfuel
          have henough : middle.length ≤ fuel := by omega
          rcases ih hall.2 hrest henough with
            ⟨word, after, next, rfl, hafter, hhead, hleads, hscan⟩
          refine ⟨c :: word, after, next, rfl, hafter, hhead, hstep.trans hleads, ?_⟩
          have hbreak : (cursor.forward 1 text).pastBreak? = none := by
            cases hescape with
            | short hletter =>
                exact pastBreak?_of_not_isBreak rfl (escape?_of_shortEscape? hletter).2
            | single _ _ _ => exact pastBreak?_of_not_isBreak rfl (by decide)
            | double _ _ _ _ => exact pastBreak?_of_not_isBreak rfl (by decide)
          have hinner : ¬ (isBlankOrBreak '\\' = true ∨ '\\' = '"') := by decide
          simp only [scanDoubleQuotedWord, htext, hinner, if_false, if_true, hbreak, hescaped,
            ok_bind, hscan]
          rfl

/-- A gap takes all blanks in front of the next word. -/
theorem scanGap_of_spells (indent : Nat) {text : List Char}
    (hspells : Json.SpellsCharacters characters text rest) (hascii : IsAscii characters)
    (htext : cursor.rest = text) {fuel : Nat} (hfuel : text.length ≤ fuel) {gap : Gap}
    (hgap : gap.isBroken = false) :
    ∃ blanks more next filled, characters = blanks ++ more ∧
      Json.SpellsCharacters more next.rest rest ∧ cursor.LeadsTo next ∧
      (text.head? = some ' ' → next.rest.length < text.length) ∧
      filled.text = gap.text ++ blanks ∧
      scanGap indent fuel gap cursor = .ok (filled, next) := by
  induction hspells generalizing cursor fuel gap with
  | @closed rest =>
      refine ⟨[], [], cursor, gap, rfl, htext ▸ .closed, .refl cursor, by simp, by simp, ?_⟩
      cases fuel with
      | zero => rfl
      | succ fuel => simp [scanGap, htext, pastBreak?_of_not_isBreak htext, isBlank, isBreak]
  | @plain c more text rest hquote hbackslash hprintable hmore ih =>
      have hall := List.forall_mem_cons.mp hascii
      have hnone := pastBreak?_of_not_isBreak htext (isBreak_of_isAscii hprintable hall.1)
      cases fuel with
      | zero => exact absurd hfuel (Nat.not_succ_le_zero _)
      | succ fuel =>
          by_cases hspace : c = ' '
          · subst hspace
            have hstep : cursor.LeadsTo (cursor.forward 1 text) := .pastFirst htext
            have hrest : (cursor.forward 1 text).rest = text := rfl
            have henough : text.length ≤ fuel := Nat.le_of_succ_le_succ hfuel
            have hadded : (gap.addBlank ' ').isBroken = false ∧
                (gap.addBlank ' ').text = gap.text ++ [' '] := by
              simp [Gap.addBlank, Gap.text, hgap]
            rcases ih hall.2 hrest henough hadded.1 with
              ⟨blanks, after, next, filled, rfl, hafter, hleads, _, hfilled, hscan⟩
            refine ⟨' ' :: blanks, after, next, filled, rfl, hafter, hstep.trans hleads, ?_, ?_,
              ?_⟩
            · intro _
              exact Nat.lt_succ_of_le hleads.length_le
            · rw [hfilled, hadded.2, List.append_assoc]
              rfl
            · simp only [scanGap, hnone, htext, hgap, hscan]
              rfl
          · refine ⟨[], c :: more, cursor, gap, rfl, ?_, .refl cursor, ?_, by simp, ?_⟩
            · rw [htext]
              exact .plain hquote hbackslash hprintable hmore
            · simp [hspace]
            · simp [scanGap, hnone, htext, isBlank_of_isAscii hprintable hspace]
  | @escaped c more text middle rest hescape hmore ih =>
      refine ⟨[], c :: more, cursor, gap, rfl, ?_, .refl cursor, by simp, by simp, ?_⟩
      · rw [htext]
        exact .escaped hescape hmore
      · cases fuel with
        | zero => rfl
        | succ fuel => simp [scanGap, htext, pastBreak?_of_not_isBreak htext, isBlank, isBreak]

/-! ## Whole scalars -/

theorem seesDocumentMarker_of_column_ne_zero (hcolumn : cursor.mark.column ≠ 0) :
    cursor.seesDocumentMarker = false := by
  simp [Cursor.seesDocumentMarker, Cursor.seesTriple, hcolumn]

theorem scanQuotedWords_of_spells (start : Mark) {fuel : Nat}
    (hspells : Json.SpellsCharacters characters cursor.rest rest) (hascii : IsAscii characters)
    (hcolumn : cursor.mark.column ≠ 0) (hfuel : cursor.rest.length < fuel)
    (content : List Char) :
    ∃ next, next.rest = rest ∧ cursor.LeadsTo next ∧
      scanQuotedWords '"' start fuel content cursor = .ok (content ++ characters, next) := by
  induction fuel generalizing cursor characters content with
  | zero => exact absurd hfuel (Nat.not_lt_zero _)
  | succ fuel ih =>
      have henough := Nat.le_of_lt_succ hfuel
      have hopen : cursor.rest ≠ [] := by
        intro hnil
        have hlt := hspells.length_lt
        rw [hnil] at hlt
        exact Nat.not_lt_zero _ hlt
      rcases scanDoubleQuotedWord_of_spells start hspells hascii rfl henough with
        ⟨word, more, next, rfl, hmore, hhead, hleads, hword⟩
      have hasciiMore := (List.forall_mem_append.mp hascii).2
      have hmarker := seesDocumentMarker_of_column_ne_zero hcolumn
      have hlengthLe := hleads.length_le
      cases hnext : next.rest with
      | nil => simp [hnext] at hhead
      | cons c tail =>
          rw [hnext] at hmore
          by_cases hquote : c = '"'
          · -- a quote that is not escaped is the closing one
            subst hquote
            have hclosed : more = [] ∧ rest = tail := hmore.unique .closed
            have hstep : next.LeadsTo (next.forward 1 tail) := .pastFirst hnext
            refine ⟨next.forward 1 tail, hclosed.2.symm, hleads.trans hstep, ?_⟩
            simp only [scanQuotedWords, hmarker, hopen, scanQuotedWord, hword, ok_bind, hnext,
              if_false, if_true, hclosed.1, List.append_nil]
            rfl
          · have hspace : c = ' ' := by
              simpa [hnext, hquote] using hhead
            have hunbroken : ({} : Gap).isBroken = false := rfl
            rcases scanGap_of_spells 0 hmore hasciiMore hnext
                (Nat.le_trans (hnext ▸ hlengthLe) henough) hunbroken with
              ⟨blanks, after, last, filled, rfl, hafter, hgapLeads, hshorter, hfilled, hgap⟩
            have hblanks : filled.text = blanks := hfilled
            have hlt : last.rest.length < next.rest.length := by
              rw [hnext]
              exact hshorter (by rw [hspace]; rfl)
            have hline := hleads.trans hgapLeads
            rcases ih hafter (List.forall_mem_append.mp hasciiMore).2
                (hline.column_ne_zero hcolumn) (by omega) (content ++ word ++ blanks) with
              ⟨final, hfinal, hrestLeads, hscan⟩
            refine ⟨final, hfinal, hline.trans hrestLeads, ?_⟩
            simp only [scanQuotedWords, hmarker, hopen, scanQuotedWord, hword, ok_bind, hnext,
              hquote, if_false, if_true, hgap, hblanks, Bool.false_eq_true]
            rw [hscan, List.append_assoc, List.append_assoc]

theorem scanQuoted_of_spells {text : List Char}
    (hspells : Json.SpellsCharacters characters text rest) (hascii : IsAscii characters)
    (hrest : cursor.rest = '"' :: text) :
    ∃ next, next.rest = rest ∧ cursor.LeadsTo next ∧ ∀ fuel, text.length < fuel →
      scanQuoted '"' fuel cursor = .ok { content := characters, stop := next.mark, next } := by
  have hopened : cursor.LeadsTo (cursor.forward 1 text) := .pastFirst hrest
  have hcolumn : (cursor.forward 1 text).mark.column ≠ 0 := by
    simp [Cursor.forward, Mark.forward]
  have hspellsOpened : Json.SpellsCharacters characters (cursor.forward 1 text).rest rest := hspells
  have hscan := fun fuel (hfuel : text.length < fuel) =>
    scanQuotedWords_of_spells cursor.mark hspellsOpened hascii hcolumn hfuel []
  rcases hscan _ (Nat.lt_succ_self _) with ⟨next, hnext, hleads, _⟩
  refine ⟨next, hnext, hopened.trans hleads, ?_⟩
  intro fuel hfuel
  rcases hscan fuel hfuel with ⟨other, hother, hleadsOther, hwords⟩
  have hsame := hleadsOther.unique hleads (hother.trans hnext.symm)
  simp only [scanQuoted, hrest, List.drop_one, List.tail_cons, hwords, hsame]
  rfl

end Scalars

end ErrorTaxonomy.Yaml
