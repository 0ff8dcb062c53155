import ErrorTaxonomy.Proofs.JsonLayouts

/-!
# Blanks in JSON

Without the blanks that stand outside of its strings the pretty text of a value is the
compact one.  Where a string begins and ends is told by the quotes, of which one behind
a backslash is not counted.
-/

namespace ErrorTaxonomy.Json

/-- Where a character of a text stands: between the signs, within a string, or within
one behind a backslash. -/
inductive Region where
  | outside
  | inside
  | escaped

/-- A text without the blanks outside of its strings. -/
def withoutBlanks : Region → List Char → List Char
  | _, [] => []
  | .outside, c :: rest =>
      if isBlank c then withoutBlanks .outside rest
      else c :: withoutBlanks (if c = '"' then .inside else .outside) rest
  | .inside, c :: rest =>
      c :: withoutBlanks (if c = '"' then .outside else if c = '\\' then .escaped else .inside)
        rest
  | .escaped, c :: rest => c :: withoutBlanks .inside rest

theorem hexDigit_inert : ∀ digit < 16, hexDigit digit ≠ '"' ∧ hexDigit digit ≠ '\\' := by
  decide

theorem withoutBlanks_escapedChar (c : Char) (text : List Char) :
    withoutBlanks .inside (escapedChar c ++ text) =
      escapedChar c ++ withoutBlanks .inside text := by
  have hescaping := escaping_escapedChar c
  generalize escapedChar c = spelled at hescaping ⊢
  cases hescaping with
  | short _ => simp [withoutBlanks]
  | control hcontrol =>
      obtain ⟨hhigh, hhigh'⟩ := hexDigit_inert (c.toNat / 16) (by omega)
      obtain ⟨hlow, hlow'⟩ := hexDigit_inert (c.toNat % 16) (by omega)
      simp [withoutBlanks, hhigh, hhigh', hlow, hlow']
  | plain hquote hbackslash _ => simp [withoutBlanks, hquote, hbackslash]

theorem withoutBlanks_quoted (content : String) (rest : List Char) :
    withoutBlanks .outside (quoted content ++ rest) =
      quoted content ++ withoutBlanks .outside rest := by
  have hescaped : ∀ characters : List Char,
      withoutBlanks .inside (escaped characters ++ '"' :: rest) =
        escaped characters ++ '"' :: withoutBlanks .outside rest := by
    intro characters
    induction characters with
    | nil => simp [escaped, withoutBlanks]
    | cons c more ih =>
        have hcons : escaped (c :: more) = escapedChar c ++ escaped more := rfl
        rw [hcons, List.append_assoc, withoutBlanks_escapedChar, ih, List.append_assoc]
  rw [quoted_append, quoted_append]
  simp [withoutBlanks, isBlank, hescaped]

theorem withoutBlanks_blanks {blanks : List Char} (hblanks : Blanks blanks)
    (rest : List Char) :
    withoutBlanks .outside (blanks ++ rest) = withoutBlanks .outside rest := by
  induction blanks with
  | nil => rfl
  | cons c more ih =>
      have hall := List.forall_mem_cons.mp hblanks
      rw [List.cons_append, withoutBlanks, if_pos hall.1]
      exact ih hall.2

theorem withoutBlanks_number {value : Json} {text : List Char}
    (hspells : SpellsNumber value text) (rest : List Char) :
    withoutBlanks .outside (text ++ rest) = text ++ withoutBlanks .outside rest := by
  have hnumeral := hspells.isNumeralChar
  clear hspells
  induction text with
  | nil => rfl
  | cons c more ih =>
      have hall := List.forall_mem_cons.mp hnumeral
      have hquote : c ≠ '"' := by
        rintro rfl
        exact absurd hall.1 (by decide)
      simp [withoutBlanks, isBlank_of_isNumeralChar hall.1, hquote, ih hall.2]

theorem withoutBlanks_sign {c : Char} (hblank : isBlank c = false) (hquote : c ≠ '"')
    (rest : List Char) : withoutBlanks .outside (c :: rest) =
      c :: withoutBlanks .outside rest := by
  simp [withoutBlanks, hblank, hquote]

theorem withoutBlanks_freshLine {c : Char} (hblank : isBlank c = false) (hquote : c ≠ '"')
    (depth : Nat) (rest : List Char) :
    withoutBlanks .outside (c :: (freshLine depth ++ rest)) =
      c :: withoutBlanks .outside rest := by
  rw [withoutBlanks_sign hblank hquote, withoutBlanks_blanks (blanks_freshLine depth)]

theorem withoutBlanks_member (key : String) (rest : List Char) :
    withoutBlanks .outside (quoted key ++ ':' :: ' ' :: rest) =
      quoted key ++ ':' :: withoutBlanks .outside rest := by
  rw [withoutBlanks_quoted, withoutBlanks_sign (by decide) (by decide)]
  exact congrArg (quoted key ++ ':' :: ·) (withoutBlanks_blanks blanks_space rest)

-- Whatever follows a value is carried along, as what comes behind its last sign is
-- outside of all strings again.
mutual

theorem withoutBlanks_prettyAt (depth : Nat) (value : Json) (rest : List Char)
    (hwritten : value.WellWritten) :
    withoutBlanks .outside (prettyAt depth value ++ rest) =
      value.compact ++ withoutBlanks .outside rest := by
  match value with
  | null => rfl
  | bool true => rfl
  | bool false => rfl
  | integer number => exact withoutBlanks_number (spellsNumber_toString number) rest
  | decimal literal => exact withoutBlanks_number (.decimal hwritten) rest
  | string text => exact withoutBlanks_quoted text rest
  | array [] => rfl
  | array (first :: more) =>
      have hfirst := withoutBlanks_prettyAt (depth + 1) first
        (prettyItems depth more ++ rest) hwritten.1
      have hmore := withoutBlanks_prettyItems depth more rest hwritten.2
      simp only [prettyAt, compact, List.cons_append, List.append_assoc]
      rw [withoutBlanks_freshLine (by decide) (by decide), hfirst, hmore]
  | object [] => rfl
  | object ((key, first) :: more) =>
      have hfirst := withoutBlanks_prettyAt (depth + 1) first
        (prettyMembers depth more ++ rest) hwritten.1
      have hmore := withoutBlanks_prettyMembers depth more rest hwritten.2
      simp only [prettyAt, compact, List.cons_append, List.append_assoc]
      rw [withoutBlanks_freshLine (by decide) (by decide), withoutBlanks_member, hfirst,
        hmore]

theorem withoutBlanks_prettyItems (depth : Nat) (items : List Json) (rest : List Char)
    (hwritten : ItemsWellWritten items) :
    withoutBlanks .outside (prettyItems depth items ++ rest) =
      compactItems items ++ withoutBlanks .outside rest := by
  match items with
  | [] =>
      rw [prettyItems, List.append_assoc, withoutBlanks_blanks (blanks_freshLine depth)]
      rfl
  | item :: more =>
      have hitem := withoutBlanks_prettyAt (depth + 1) item
        (prettyItems depth more ++ rest) hwritten.1
      have hmore := withoutBlanks_prettyItems depth more rest hwritten.2
      simp only [prettyItems, compactItems, List.cons_append, List.append_assoc]
      rw [withoutBlanks_freshLine (by decide) (by decide), hitem, hmore]

theorem withoutBlanks_prettyMembers (depth : Nat) (members : List (String × Json))
    (rest : List Char) (hwritten : MembersWellWritten members) :
    withoutBlanks .outside (prettyMembers depth members ++ rest) =
      compactMembers members ++ withoutBlanks .outside rest := by
  match members with
  | [] =>
      rw [prettyMembers, List.append_assoc, withoutBlanks_blanks (blanks_freshLine depth)]
      rfl
  | (key, value) :: more =>
      have hvalue := withoutBlanks_prettyAt (depth + 1) value
        (prettyMembers depth more ++ rest) hwritten.1
      have hmore := withoutBlanks_prettyMembers depth more rest hwritten.2
      simp only [prettyMembers, compactMembers, List.cons_append, List.append_assoc]
      rw [withoutBlanks_freshLine (by decide) (by decide), withoutBlanks_member, hvalue,
        hmore]

end

theorem withoutBlanks_pretty {value : Json} (hwritten : value.WellWritten) :
    withoutBlanks .outside value.pretty = value.compact := by
  have htext := withoutBlanks_prettyAt 0 value [] hwritten
  simpa [withoutBlanks, pretty] using htext

example : withoutBlanks .outside "[\n  \"a \\\" b\"\n]".toList = "[\"a \\\" b\"]".toList := by
  decide

end ErrorTaxonomy.Json
