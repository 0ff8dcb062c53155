import ErrorTaxonomy.Proofs.JsonSkipping
import ErrorTaxonomy.Proofs.RecordPresentation

/-!
# Reading what a text spells

A reader takes a value off the front of every text that spells it there, and leaves the rest.
Texts, lists and records are read in this sense out of their parts; members that no slot of a
record has a use for are skipped.  A record is read of an object, or of the list of its values.
-/

namespace ErrorTaxonomy.Json

def ReadsSpelled {α : Type} (reader : Reader α) (value : Json) (a : α) : Prop :=
  ∀ spaced rest, Spells (.value value) (skipBlank spaced) rest → reader spaced = .ok (a, rest)

theorem map_readsSpelled {α β : Type} {f : α → β} {reader : Reader α} {value : Json} {a : α}
    (hreads : ReadsSpelled reader value a) : ReadsSpelled (f <$> reader) value (f a) := by
  intro spaced rest hspells
  have hmap : (f <$> reader) spaced = reader spaced >>= fun read => pure (f read.1, read.2) := rfl
  rw [hmap, hreads spaced rest hspells]
  rfl

theorem readText_readsSpelled (content : String) :
    ReadsSpelled readText (.string content) content := by
  intro spaced rest hspells
  generalize htext : skipBlank spaced = text at hspells
  cases hspells with
  | string hcharacters =>
      rw [readText, readTextExpecting, htext]
      exact scanString_of_spells hcharacters
  | number hnumber => cases hnumber

/-! ## Lists -/

section Lists

variable {α : Type} {item : Reader α} {text middle rest : List Char}

theorem nextItem_of_bracket {first : Bool} (hclosed : skipBlank text = ']' :: rest) :
    nextItem first text = .ok (.closed rest) := by
  simp [nextItem, hclosed]

theorem nextItem_of_first {value : Json}
    (hspells : Spells (.value value) (skipBlank text) middle) :
    nextItem true text = .ok (.item (skipBlank text)) := by
  cases htext : skipBlank text with
  | nil =>
      rw [htext] at hspells
      exact absurd hspells.length_lt (Nat.not_lt_zero _)
  | cons c more =>
      rw [htext] at hspells
      simp [nextItem, htext, hspells.head_ne_bracket]

theorem nextItem_of_comma {value : Json} {comma : List Char}
    (hcomma : skipBlank text = ',' :: comma)
    (hspells : Spells (.value value) (skipBlank comma) middle) :
    nextItem false text = .ok (.item (skipBlank comma)) := by
  cases hskip : skipBlank comma with
  | nil =>
      rw [hskip] at hspells
      exact absurd hspells.length_lt (Nat.not_lt_zero _)
  | cons c more =>
      rw [hskip] at hspells
      simp [nextItem, hcomma, hskip, hspells.head_ne_bracket]

theorem closeList_of_bracket (hclosed : skipBlank text = ']' :: rest) :
    closeList text = .ok rest := by
  simp [closeList, hclosed]

theorem readItems_of_spells {values : List Json} {items : List α}
    (hitems : List.Forall₂ (ReadsSpelled item) values items)
    (hspells : Spells (.items values) text rest) {fuel : Nat} (hfuel : text.length < fuel) :
    readItems item fuel false text = .ok (items, rest) := by
  induction hitems generalizing text fuel with
  | nil =>
      cases hspells with
      | noItems hclosed =>
          cases fuel with
          | zero => exact absurd hfuel (Nat.not_lt_zero _)
          | succ fuel =>
              simp only [readItems, nextItem_of_bracket hclosed]
              rfl
  | cons hitem _ ih =>
      cases hspells with
      | @item _ _ _ comma middle _ hcomma hvalue hmore =>
          cases fuel with
          | zero => exact absurd hfuel (Nat.not_lt_zero _)
          | succ fuel =>
              have hshorter := length_lt_of_skipBlank_eq hcomma
              have hle := length_skipBlank_le comma
              have hlt := hvalue.length_lt
              have hread := hitem (skipBlank comma) middle (by rwa [skipBlank_skipBlank])
              have henough : middle.length < fuel := by omega
              simp only [readItems, nextItem_of_comma hcomma hvalue, ok_bind, hread,
                ih hmore henough]
              rfl

theorem readList_readsSpelled {values : List Json} {items : List α}
    (hitems : List.Forall₂ (ReadsSpelled item) values items) :
    ReadsSpelled (readList item) (.array values) items := by
  intro spaced rest hspells
  generalize htext : skipBlank spaced = text at hspells
  cases hspells with
  | emptyArray hclosed =>
      cases hitems with
      | nil =>
          simp only [readList, htext, readItems, nextItem_of_bracket hclosed]
          rfl
  | @array _ _ text middle _ hfirst hmore =>
      cases hitems with
      | cons hitem hitems =>
          have hle := length_skipBlank_le text
          have hlt := hfirst.length_lt
          have hread := hitem (skipBlank text) middle (by rwa [skipBlank_skipBlank])
          have henough : middle.length < text.length := by omega
          have hrest := readItems_of_spells hitems hmore henough
          simp only [readList, htext, readItems, nextItem_of_first hfirst, ok_bind, hread, hrest]
          rfl
  | number hnumber => cases hnumber

end Lists

/-! ## Records -/

section Records

variable {Draft α : Type} {form : RecordForm Reader Draft α} {draft last : Draft}
  {text middle rest : List Char}

theorem nextKey_of_brace {first : Bool} (hclosed : skipBlank text = '}' :: rest) :
    nextKey first text = .ok (.closed rest) := by
  simp [nextKey, hclosed]

theorem nextKey_of_first {quoted : List Char} (hquote : skipBlank text = '"' :: quoted) :
    nextKey true text = .ok (.item quoted) := by
  simp [nextKey, hquote]

theorem nextKey_of_comma {comma quoted : List Char} (hcomma : skipBlank text = ',' :: comma)
    (hquote : skipBlank comma = '"' :: quoted) : nextKey false text = .ok (.item quoted) := by
  simp [nextKey, hcomma, hquote]

theorem exists_quote_of_spells_member {key : String} {value : Json}
    (hspells : Spells (.member key value) text rest) : ∃ quoted, text = '"' :: quoted := by
  cases hspells with
  | member _ _ _ => exact ⟨_, rfl⟩

/-- One member is read, or skipped where no slot has its key. -/
theorem readMembers_of_member {key : String} {value : Json} {members : List (String × Json)}
    {first : Bool} {quoted : List Char}
    (henters : Enters ReadsSpelled form draft ((key, value) :: members) last)
    (hnext : nextKey first text = .ok (.item quoted))
    (hspells : Spells (.member key value) ('"' :: quoted) middle) :
    ∃ entered, Enters ReadsSpelled form entered members last ∧ ∀ fuel,
      readMembers form (fuel + 1) first draft text =
        readMembers form fuel false entered middle := by
  cases hspells with
  | @member _ _ _ _ colon _ hkey hcolon hvalue =>
      have hle := length_skipBlank_le colon
      cases henters with
      | skipped hslot henters =>
          have hskip := hvalue.skips (colon.length + 1) colon (by omega) rfl
          refine ⟨draft, henters, ?_⟩
          intro fuel
          simp only [readMembers, hnext, ok_bind, scanString_of_spells hkey, hslot,
            scanColon_of_eq hcolon, hskip]
      | entered hslot hfree hreads henters =>
          refine ⟨_, henters, ?_⟩
          intro fuel
          simp only [readMembers, hnext, ok_bind, scanString_of_spells hkey, hslot, hfree,
            scanColon_of_eq hcolon, hreads colon middle hvalue]
          rfl

theorem readMembers_of_spells {members : List (String × Json)}
    (henters : Enters ReadsSpelled form draft members last)
    (hspells : Spells (.members members) text rest) {fuel : Nat} (hfuel : text.length < fuel) :
    readMembers form fuel false draft text = .ok (last, rest) := by
  induction members generalizing draft text fuel with
  | nil =>
      cases henters with
      | done =>
          cases hspells with
          | noMembers hclosed =>
              cases fuel with
              | zero => exact absurd hfuel (Nat.not_lt_zero _)
              | succ fuel =>
                  simp only [readMembers, nextKey_of_brace hclosed]
                  rfl
  | cons member members ih =>
      cases hspells with
      | @moreMembers _ _ _ _ comma _ _ hcomma hmember hmore =>
          cases fuel with
          | zero => exact absurd hfuel (Nat.not_lt_zero _)
          | succ fuel =>
              have hshorter := length_lt_of_skipBlank_eq hcomma
              have hle := length_skipBlank_le comma
              have hlt := hmember.length_lt
              rcases exists_quote_of_spells_member hmember with ⟨quoted, hquote⟩
              have hnext := nextKey_of_comma hcomma hquote
              rcases readMembers_of_member henters hnext (hquote ▸ hmember) with
                ⟨entered, henters, hstep⟩
              rw [hstep]
              exact ih henters hmore (by omega)

/-- An object is read into a draft, of which then a record is made. -/
theorem readRecord_of_enters {members : List (String × Json)} {spaced : List Char}
    (henters : Enters ReadsSpelled form form.blank members last)
    (hspells : Spells (.value (.object members)) (skipBlank spaced) rest) :
    readRecord form spaced = match form.finish last with
      | .ok value => .ok (value, rest)
      | .error key => .error (.before (.mismatch (.missingField key)) rest) := by
  have hmembers : ∃ text, skipBlank spaced = '{' :: text ∧
      readMembers form (text.length + 1) true form.blank text = .ok (last, rest) := by
    generalize hspaced : skipBlank spaced = braced at hspells
    cases hspells with
    | emptyObject hclosed =>
        cases henters with
        | done =>
            refine ⟨_, rfl, ?_⟩
            simp only [readMembers, nextKey_of_brace hclosed]
            rfl
    | @object _ _ _ text _ _ hmember hmore =>
        have hle := length_skipBlank_le text
        have hlt := hmember.length_lt
        rcases exists_quote_of_spells_member hmember with ⟨quoted, hquote⟩
        rcases readMembers_of_member henters (nextKey_of_first hquote) (hquote ▸ hmember) with
          ⟨entered, henters, hstep⟩
        refine ⟨text, rfl, ?_⟩
        rw [hstep]
        exact readMembers_of_spells henters hmore (by omega)
    | number hnumber => cases hnumber
  rcases hmembers with ⟨text, hspaced, hread⟩
  simp only [readRecord, hspaced, readObject, hread, ok_bind]
  cases form.finish last <;> rfl

theorem readSlots_of_spells {slots : List (Slot Reader Draft)} {values : List Json}
    (henters : EntersList ReadsSpelled slots draft values last)
    (hspells : Spells (.items values) text rest) :
    readSlots slots false draft text = .ok (last, rest) := by
  induction henters generalizing text with
  | @done slots draft =>
      cases hspells with
      | noItems hclosed =>
          cases slots with
          | nil =>
              simp only [readSlots, closeList_of_bracket hclosed]
              rfl
          | cons slot slots =>
              simp only [readSlots, nextItem_of_bracket hclosed]
              rfl
  | entered hreads _ ih =>
      cases hspells with
      | @item _ _ _ comma middle _ hcomma hvalue hmore =>
          have hread := hreads (skipBlank comma) middle (by rwa [skipBlank_skipBlank])
          simp only [readSlots, nextItem_of_comma hcomma hvalue, ok_bind, hread, ih hmore]

theorem readRecord_of_entersList {values : List Json} {a : α}
    (henters : EntersList ReadsSpelled form.slots form.blank values last)
    (hfinish : form.finish last = .ok a) : ReadsSpelled (readRecord form) (.array values) a := by
  intro spaced rest hspells
  have hslots : ∃ text, skipBlank spaced = '[' :: text ∧
      readSlots form.slots true form.blank text = .ok (last, rest) := by
    generalize hspaced : skipBlank spaced = bracketed at hspells
    cases hspells with
    | emptyArray hclosed =>
        refine ⟨_, rfl, ?_⟩
        generalize form.slots = slots at henters
        cases henters with
        | done =>
            cases slots with
            | nil =>
                simp only [readSlots, closeList_of_bracket hclosed]
                rfl
            | cons slot slots =>
                simp only [readSlots, nextItem_of_bracket hclosed]
                rfl
    | @array _ _ text middle _ hfirst hmore =>
        refine ⟨_, rfl, ?_⟩
        generalize form.slots = slots at henters
        cases henters with
        | entered hreads henters =>
            have hread := hreads (skipBlank text) middle (by rwa [skipBlank_skipBlank])
            simp only [readSlots, nextItem_of_first hfirst, ok_bind, hread,
              readSlots_of_spells henters hmore]
    | number hnumber => cases hnumber
  rcases hslots with ⟨text, hspaced, hread⟩
  simp only [readRecord, hspaced, readTuple, hread, ok_bind, hfinish]
  rfl

end Records

def spelledReading : Reading Reader where
  Reads := ReadsSpelled
  text := readText_readsSpelled
  map := map_readsSpelled
  list := readList_readsSpelled
  record := by
    intro Draft α form members last a henters hfinish spaced rest hspells
    have hread := readRecord_of_enters henters hspells
    rw [hfinish] at hread
    exact hread

end ErrorTaxonomy.Json
