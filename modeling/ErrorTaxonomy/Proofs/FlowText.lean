import ErrorTaxonomy.Proofs.JsonBlanks
import ErrorTaxonomy.Proofs.QuotedScalars
import ErrorTaxonomy.Yaml.Scanner

/-!
# Compact JSON that is YAML

What a compact text spells is spelled without blanks in between, so each sign of it is followed
at once by the next.  A value that is built of ASCII texts, lists and objects is then written in
the flow style of YAML, with allowed characters only.  A key has to be short, as the colon must
be found not too far behind where it began.
-/

namespace ErrorTaxonomy

namespace Json

/-- A text without blanks outside of its strings. -/
def IsCompact (text : List Char) : Prop :=
  withoutBlanks .outside text = text

theorem length_withoutBlanks_le (region : Region) (text : List Char) :
    (withoutBlanks region text).length ≤ text.length := by
  induction text generalizing region with
  | nil => cases region <;> exact Nat.le_refl _
  | cons c rest ih =>
      cases region with
      | outside =>
          rw [withoutBlanks]
          split
          · exact Nat.le_succ_of_le (ih _)
          · exact Nat.succ_le_succ (ih _)
      | inside => exact Nat.succ_le_succ (ih _)
      | escaped => exact Nat.succ_le_succ (ih _)

theorem withoutBlanks_withoutBlanks (region : Region) (text : List Char) :
    withoutBlanks region (withoutBlanks region text) = withoutBlanks region text := by
  induction text generalizing region with
  | nil => cases region <;> rfl
  | cons c rest ih =>
      cases region with
      | outside =>
          by_cases hblank : isBlank c = true
          · simp [withoutBlanks, hblank, ih]
          · simp [withoutBlanks, hblank, ih]
      | inside => simp [withoutBlanks, ih]
      | escaped => simp [withoutBlanks, ih]

theorem isCompact_compact {value : Json} (hwritten : value.WellWritten) :
    IsCompact value.compact := by
  rw [IsCompact, ← withoutBlanks_pretty hwritten, withoutBlanks_withoutBlanks]

section Compact

variable {text rest : List Char}

theorem isCompact_cons {c : Char} (hcompact : IsCompact (c :: rest)) :
    isBlank c = false ∧ withoutBlanks (if c = '"' then .inside else .outside) rest = rest := by
  cases hblank : isBlank c with
  | false =>
      rw [IsCompact, withoutBlanks, hblank] at hcompact
      exact ⟨rfl, (List.cons.inj hcompact).2⟩
  | true =>
      have hle := length_withoutBlanks_le .outside rest
      rw [IsCompact, withoutBlanks, if_pos hblank] at hcompact
      rw [hcompact, List.length_cons] at hle
      exact absurd hle (Nat.not_succ_le_self _)

theorem IsCompact.skipBlank_eq (hcompact : IsCompact text) : skipBlank text = text := by
  cases text with
  | nil => rfl
  | cons c rest =>
      rw [skipBlank, List.dropWhile_cons_of_neg (by simp [(isCompact_cons hcompact).1])]

theorem IsCompact.behind_sign {c : Char} (hcompact : IsCompact (c :: rest)) (hquote : c ≠ '"') :
    IsCompact rest := by
  have hrest := (isCompact_cons hcompact).2
  rwa [if_neg hquote] at hrest

theorem IsCompact.behind_quote (hcompact : IsCompact ('"' :: rest)) :
    withoutBlanks .inside rest = rest :=
  (isCompact_cons hcompact).2

theorem hexValue?_inert {c : Char} {digit : Nat} (hdigit : hexValue? c = some digit) :
    c ≠ '"' ∧ c ≠ '\\' := by
  constructor
  · rintro rfl
    cases hdigit
  · rintro rfl
    cases hdigit

theorem hexQuad?_inert {a b c d : Char} {unit : Nat} (hunit : hexQuad? a b c d = some unit) :
    ∀ digit ∈ [a, b, c, d], digit ≠ '"' ∧ digit ≠ '\\' := by
  simp only [hexQuad?, Option.bind_eq_bind, Option.bind_eq_some_iff, Option.pure_def,
    Option.some.injEq] at hunit
  rcases hunit with ⟨_, hfirst, _, hsecond, _, hthird, _, hfourth, _⟩
  simp only [List.forall_mem_cons]
  exact ⟨hexValue?_inert hfirst, hexValue?_inert hsecond, hexValue?_inert hthird,
    hexValue?_inert hfourth, List.forall_mem_nil _⟩

/-- Within a string nothing is a blank that is left out. -/
theorem withoutBlanks_inert {inert : List Char}
    (hinert : ∀ c ∈ inert, c ≠ '"' ∧ c ≠ '\\')
    (hinside : withoutBlanks .inside (inert ++ rest) = inert ++ rest) :
    withoutBlanks .inside rest = rest := by
  induction inert with
  | nil => exact hinside
  | cons c inert ih =>
      have hall := List.forall_mem_cons.mp hinert
      rw [List.cons_append, withoutBlanks, if_neg hall.1.1, if_neg hall.1.2] at hinside
      exact ih hall.2 (List.cons.inj hinside).2

theorem SpellsEscape.inside_rest {c : Char} (hescape : SpellsEscape c text rest)
    (hinside : withoutBlanks .escaped text = text) : withoutBlanks .inside rest = rest := by
  cases hescape with
  | short _ => exact (List.cons.inj hinside).2
  | single hunit _ _ =>
      exact withoutBlanks_inert (hexQuad?_inert hunit) (List.cons.inj hinside).2
  | double hunit _ hsecond _ =>
      have hrest := withoutBlanks_inert (hexQuad?_inert hunit) (List.cons.inj hinside).2
      have hescaped := (List.cons.inj hrest).2
      exact withoutBlanks_inert (hexQuad?_inert hsecond) (List.cons.inj hescaped).2

theorem SpellsCharacters.isCompact_rest {characters : List Char}
    (hspells : SpellsCharacters characters text rest)
    (hinside : withoutBlanks .inside text = text) : IsCompact rest := by
  induction hspells with
  | closed => exact (List.cons.inj hinside).2
  | plain hquote hbackslash _ _ ih =>
      rw [withoutBlanks, if_neg hquote, if_neg hbackslash] at hinside
      exact ih (List.cons.inj hinside).2
  | escaped hescape _ ih => exact ih (hescape.inside_rest (List.cons.inj hinside).2)

theorem SpellsEscape.length_le_of_ascii {c : Char} (hescape : SpellsEscape c text rest)
    (hascii : c.toNat < 127) : text.length ≤ 5 + rest.length := by
  cases hescape with
  | short _ =>
      rw [List.length_cons]
      omega
  | single _ _ _ =>
      simp only [List.length_cons]
      omega
  | double _ hleading _ htrailing =>
      exact absurd hascii (Yaml.joinSurrogates_not_ascii hleading htrailing)

/-- No character of ASCII takes more than an escape by its number. -/
theorem SpellsCharacters.length_le_of_ascii {characters : List Char}
    (hspells : SpellsCharacters characters text rest) (hascii : Yaml.IsAscii characters) :
    text.length ≤ 6 * characters.length + 1 + rest.length := by
  induction hspells with
  | closed =>
      rw [List.length_cons]
      omega
  | plain _ _ _ _ ih =>
      have hle := ih (List.forall_mem_cons.mp hascii).2
      simp only [List.length_cons]
      omega
  | escaped hescape _ ih =>
      have hle := ih (List.forall_mem_cons.mp hascii).2
      have hescapeLe := hescape.length_le_of_ascii (List.forall_mem_cons.mp hascii).1
      simp only [List.length_cons]
      omega

end Compact

end Json

namespace Yaml

open Json (Piece Spells SpellsEscape SpellsCharacters)

/-- A key that is short enough to be found again however it is escaped. -/
def IsShortKey (key : String) : Prop :=
  IsAscii key.toList ∧ 6 * key.toList.length + 2 ≤ PossibleKey.reach

mutual

/-- Whether a value is built of ASCII texts, lists and objects with short keys. -/
def IsTextual : Json → Prop
  | .string text => IsAscii text.toList
  | .array items => ItemsAreTextual items
  | .object members => MembersAreTextual members
  | _ => False

def ItemsAreTextual : List Json → Prop
  | [] => True
  | item :: items => IsTextual item ∧ ItemsAreTextual items

def MembersAreTextual : List (String × Json) → Prop
  | [] => True
  | (key, value) :: members => IsShortKey key ∧ IsTextual value ∧ MembersAreTextual members

end

def PieceIsTextual : Piece → Prop
  | .value value => IsTextual value
  | .member key value => IsShortKey key ∧ IsTextual value
  | .items items => ItemsAreTextual items
  | .members members => MembersAreTextual members

theorem itemsAreTextual_iff (items : List Json) :
    ItemsAreTextual items ↔ ∀ item ∈ items, IsTextual item := by
  induction items with
  | nil => simp [ItemsAreTextual]
  | cons item items ih => simp [ItemsAreTextual, ih]

theorem membersAreTextual_iff (members : List (String × Json)) :
    MembersAreTextual members ↔
      ∀ member ∈ members, IsShortKey member.1 ∧ IsTextual member.2 := by
  induction members with
  | nil => simp [MembersAreTextual]
  | cons member members ih => simp [MembersAreTextual, ih, and_assoc]

theorem not_isTextual_of_spellsNumber {value : Json} {text : List Char}
    (hspells : Json.SpellsNumber value text) : ¬ IsTextual value := by
  cases hspells <;> exact id

/-- A part of a text in flow style without blanks, and what is left behind it. -/
inductive Flows : Piece → List Char → List Char → Prop
  | string {content : String} {text rest : List Char} :
      SpellsCharacters content.toList text rest → IsAscii content.toList →
        Flows (.value (.string content)) ('"' :: text) rest
  | emptyArray {rest : List Char} : Flows (.value (.array [])) ('[' :: ']' :: rest) rest
  | array {first : Json} {more : List Json} {text middle rest : List Char} :
      Flows (.value first) text middle → Flows (.items more) middle rest →
        Flows (.value (.array (first :: more))) ('[' :: text) rest
  | emptyObject {rest : List Char} : Flows (.value (.object [])) ('{' :: '}' :: rest) rest
  | object {key : String} {first : Json} {more : List (String × Json)}
      {text middle rest : List Char} :
      Flows (.member key first) text middle → Flows (.members more) middle rest →
        Flows (.value (.object ((key, first) :: more))) ('{' :: text) rest
  | member {key : String} {value : Json} {text colon rest : List Char} :
      SpellsCharacters key.toList text (':' :: colon) → IsShortKey key →
        Flows (.value value) colon rest → Flows (.member key value) ('"' :: text) rest
  | noItems {rest : List Char} : Flows (.items []) (']' :: rest) rest
  | item {item : Json} {more : List Json} {comma middle rest : List Char} :
      Flows (.value item) comma middle → Flows (.items more) middle rest →
        Flows (.items (item :: more)) (',' :: comma) rest
  | noMembers {rest : List Char} : Flows (.members []) ('}' :: rest) rest
  | moreMembers {key : String} {value : Json} {more : List (String × Json)}
      {comma middle rest : List Char} :
      Flows (.member key value) comma middle → Flows (.members more) middle rest →
        Flows (.members ((key, value) :: more)) (',' :: comma) rest

theorem flows_of_spells {piece : Piece} {text rest : List Char} (hspells : Spells piece text rest)
    (htextual : PieceIsTextual piece) (hcompact : Json.IsCompact text) :
    Flows piece text rest ∧ Json.IsCompact rest := by
  induction hspells with
  | null => exact absurd htextual id
  | yes => exact absurd htextual id
  | no => exact absurd htextual id
  | number hnumber => exact absurd htextual (not_isTextual_of_spellsNumber hnumber)
  | string hcharacters =>
      exact ⟨.string hcharacters htextual, hcharacters.isCompact_rest hcompact.behind_quote⟩
  | emptyArray hclosed =>
      have hinside := hcompact.behind_sign (by decide)
      rw [hinside.skipBlank_eq] at hclosed
      subst hclosed
      exact ⟨.emptyArray, hinside.behind_sign (by decide)⟩
  | array _ _ ihfirst ihmore =>
      have hinside := hcompact.behind_sign (by decide)
      rw [hinside.skipBlank_eq] at ihfirst
      have hfirst := ihfirst htextual.1 hinside
      have hmore := ihmore htextual.2 hfirst.2
      exact ⟨.array hfirst.1 hmore.1, hmore.2⟩
  | emptyObject hclosed =>
      have hinside := hcompact.behind_sign (by decide)
      rw [hinside.skipBlank_eq] at hclosed
      subst hclosed
      exact ⟨.emptyObject, hinside.behind_sign (by decide)⟩
  | object _ _ ihfirst ihmore =>
      have hinside := hcompact.behind_sign (by decide)
      rw [hinside.skipBlank_eq] at ihfirst
      have hfirst := ihfirst ⟨htextual.1, htextual.2.1⟩ hinside
      have hmore := ihmore htextual.2.2 hfirst.2
      exact ⟨.object hfirst.1 hmore.1, hmore.2⟩
  | member hkey hcolon _ ih =>
      have hmiddle := hkey.isCompact_rest hcompact.behind_quote
      rw [hmiddle.skipBlank_eq] at hcolon
      subst hcolon
      have hinside := hmiddle.behind_sign (by decide)
      rw [hinside.skipBlank_eq] at ih
      have hvalue := ih htextual.2 hinside
      exact ⟨.member hkey htextual.1 hvalue.1, hvalue.2⟩
  | noItems hclosed =>
      rw [hcompact.skipBlank_eq] at hclosed
      subst hclosed
      exact ⟨.noItems, hcompact.behind_sign (by decide)⟩
  | item hcomma _ _ ihitem ihmore =>
      rw [hcompact.skipBlank_eq] at hcomma
      subst hcomma
      have hinside := hcompact.behind_sign (by decide)
      rw [hinside.skipBlank_eq] at ihitem
      have hitem := ihitem htextual.1 hinside
      have hmore := ihmore htextual.2 hitem.2
      exact ⟨.item hitem.1 hmore.1, hmore.2⟩
  | noMembers hclosed =>
      rw [hcompact.skipBlank_eq] at hclosed
      subst hclosed
      exact ⟨.noMembers, hcompact.behind_sign (by decide)⟩
  | moreMembers hcomma _ _ ihmember ihmore =>
      rw [hcompact.skipBlank_eq] at hcomma
      subst hcomma
      have hinside := hcompact.behind_sign (by decide)
      rw [hinside.skipBlank_eq] at ihmember
      have hmember := ihmember ⟨htextual.1, htextual.2.1⟩ hinside
      have hmore := ihmore htextual.2.2 hmember.2
      exact ⟨.moreMembers hmember.1 hmore.1, hmore.2⟩

/-! ## Allowed characters -/

def AreAllowed (text : List Char) : Prop :=
  ∀ c ∈ text, isAllowed c = true

section Allowed

variable {text rest : List Char}

theorem areAllowed_cons {c : Char} (hc : isAllowed c = true) (hrest : AreAllowed rest) :
    AreAllowed (c :: rest) :=
  List.forall_mem_cons.mpr ⟨hc, hrest⟩

theorem isAllowed_of_isAscii {c : Char} (hprintable : 32 ≤ c.toNat) (hascii : c.toNat < 127) :
    isAllowed c = true := by
  have hbetween : ' ' ≤ c ∧ c ≤ '~' := by
    constructor
    · exact hprintable
    · exact Nat.le_of_lt_succ hascii
  simp [isAllowed, hbetween]

theorem isAllowed_of_hexValue? {c : Char} {digit : Nat}
    (hdigit : Json.hexValue? c = some digit) : isAllowed c = true := by
  have hbetween : ' ' ≤ c ∧ c ≤ '~' := by
    unfold Json.hexValue? at hdigit
    split_ifs at hdigit with hdecimal hlower hupper
    · exact ⟨Char.le_trans (by decide) hdecimal.1, Char.le_trans hdecimal.2 (by decide)⟩
    · exact ⟨Char.le_trans (by decide) hlower.1, Char.le_trans hlower.2 (by decide)⟩
    · exact ⟨Char.le_trans (by decide) hupper.1, Char.le_trans hupper.2 (by decide)⟩
  simp [isAllowed, hbetween]

theorem isAllowed_of_shortEscape? {letter c : Char}
    (hletter : Json.shortEscape? letter = some c) : isAllowed letter = true := by
  unfold Json.shortEscape? at hletter
  split_ifs at hletter
  all_goals
    subst letter
    decide

theorem areAllowed_of_spellsEscape {c : Char} (hescape : SpellsEscape c text rest)
    (hascii : c.toNat < 127) (hrest : AreAllowed rest) : AreAllowed text := by
  cases hescape with
  | short hletter => exact areAllowed_cons (isAllowed_of_shortEscape? hletter) hrest
  | single hunit _ _ =>
      simp only [Json.hexQuad?, Option.bind_eq_bind, Option.bind_eq_some_iff] at hunit
      rcases hunit with ⟨_, hfirst, _, hsecond, _, hthird, _, hfourth, _⟩
      have hfourth := areAllowed_cons (isAllowed_of_hexValue? hfourth) hrest
      have hthird := areAllowed_cons (isAllowed_of_hexValue? hthird) hfourth
      have hsecond := areAllowed_cons (isAllowed_of_hexValue? hsecond) hthird
      have hfirst := areAllowed_cons (isAllowed_of_hexValue? hfirst) hsecond
      exact areAllowed_cons (by decide) hfirst
  | double _ hleading _ htrailing =>
      exact absurd hascii (joinSurrogates_not_ascii hleading htrailing)

theorem areAllowed_of_spellsCharacters {characters : List Char}
    (hspells : SpellsCharacters characters text rest) (hascii : IsAscii characters)
    (hrest : AreAllowed rest) : AreAllowed text := by
  induction hspells with
  | closed => exact areAllowed_cons (by decide) hrest
  | plain _ _ hprintable _ ih =>
      have hall := List.forall_mem_cons.mp hascii
      exact areAllowed_cons (isAllowed_of_isAscii hprintable hall.1) (ih hall.2 hrest)
  | escaped hescape _ ih =>
      have hall := List.forall_mem_cons.mp hascii
      have htext := areAllowed_of_spellsEscape hescape hall.1 (ih hall.2 hrest)
      exact areAllowed_cons (by decide) htext

theorem areAllowed_of_flows {piece : Piece} (hflows : Flows piece text rest)
    (hrest : AreAllowed rest) : AreAllowed text := by
  induction hflows with
  | string hcharacters hascii =>
      exact areAllowed_cons (by decide) (areAllowed_of_spellsCharacters hcharacters hascii hrest)
  | emptyArray => exact areAllowed_cons (by decide) (areAllowed_cons (by decide) hrest)
  | array _ _ ihfirst ihmore => exact areAllowed_cons (by decide) (ihfirst (ihmore hrest))
  | emptyObject => exact areAllowed_cons (by decide) (areAllowed_cons (by decide) hrest)
  | object _ _ ihfirst ihmore => exact areAllowed_cons (by decide) (ihfirst (ihmore hrest))
  | member hkey hshort _ ih =>
      have hcolon := areAllowed_cons (c := ':') (by decide) (ih hrest)
      exact areAllowed_cons (by decide) (areAllowed_of_spellsCharacters hkey hshort.1 hcolon)
  | noItems => exact areAllowed_cons (by decide) hrest
  | item _ _ ihitem ihmore => exact areAllowed_cons (by decide) (ihitem (ihmore hrest))
  | noMembers => exact areAllowed_cons (by decide) hrest
  | moreMembers _ _ ihmember ihmore => exact areAllowed_cons (by decide) (ihmember (ihmore hrest))

theorem firstForbidden?_of_areAllowed (hallowed : AreAllowed text) (bytes : Nat) :
    firstForbidden? bytes text = none := by
  induction text generalizing bytes with
  | nil => rfl
  | cons c text ih =>
      have hall := List.forall_mem_cons.mp hallowed
      rw [firstForbidden?, if_pos hall.1]
      exact ih hall.2 _

end Allowed

end Yaml

end ErrorTaxonomy
