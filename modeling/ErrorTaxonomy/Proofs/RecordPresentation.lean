import ErrorTaxonomy.DeclarationForms
import ErrorTaxonomy.Json.Tree
import ErrorTaxonomy.Proofs.FirstFailure
import Mathlib.Logic.Function.Basic

/-!
# Presentations of records

A record is presented by an object that says each of its members once or leaves it out
where the record has the default for it, in any order and among members of other keys, or
by a list that says them in order and may end before the last ones.

A form collects members in a draft, and which draft it is depends on nothing but the keys
that have been met.  This holds in every notation, whatever a notation takes for a value,
so the order of the members does not matter in any of them.
-/

namespace ErrorTaxonomy

/-- A member of a record: its key, the values that say it, whether it has to be there, and
whether the record has the default for it. -/
structure Part where
  key : String
  IsSaidBy : Json → Prop
  isRequired : Bool
  HasDefault : Prop

/-- The values of a key, in the order in which they are written. -/
def valuesAt (key : String) (members : List (String × Json)) : List Json :=
  (members.filter fun member => member.1 = key).map Prod.snd

namespace Part

def MayBeAbsent (part : Part) : Prop :=
  part.isRequired = false ∧ part.HasDefault

/-- A part is said once, or left out where it may be. -/
inductive Stands (part : Part) (members : List (String × Json)) : Prop
  | said {value : Json} :
      valuesAt part.key members = [value] → part.IsSaidBy value → part.Stands members
  | absent : valuesAt part.key members = [] → part.MayBeAbsent → part.Stands members

def IsMissing (part : Part) (members : List (String × Json)) : Prop :=
  part.isRequired = true ∧ valuesAt part.key members = []

end Part

def ObjectPresents (parts : List Part) (members : List (String × Json)) : Prop :=
  ∀ part ∈ parts, part.Stands members

/-- An object that would present a record if it had the members that it has to have. -/
structure ObjectLacks (parts : List Part) (members : List (String × Json)) : Prop where
  missing : ∃ part ∈ parts, part.IsMissing members
  others : ∀ part ∈ parts, part.Stands members ∨ part.IsMissing members

inductive ListPresents : List Part → List Json → Prop
  | ended {parts : List Part} : (∀ part ∈ parts, part.MayBeAbsent) → ListPresents parts []
  | next {part : Part} {parts : List Part} {value : Json} {values : List Json} :
      part.IsSaidBy value → ListPresents parts values →
        ListPresents (part :: parts) (value :: values)

inductive Presents (parts : List Part) : Json → Prop
  | object {members : List (String × Json)} :
      ObjectPresents parts members → Presents parts (.object members)
  | list {values : List Json} : ListPresents parts values → Presents parts (.array values)

/-! ## The parts of declarations -/

def ErrorDeclaration.parts (declaration : ErrorDeclaration) : List Part :=
  [{ key := "name"
     IsSaidBy := fun value => value = .string declaration.name
     isRequired := true
     HasDefault := False },
   { key := "description"
     IsSaidBy := fun value => value = .string declaration.description
     isRequired := false
     HasDefault := declaration.description = "" },
   { key := "inherits"
     IsSaidBy := fun value => value = .array (declaration.inherits.map .string)
     isRequired := false
     HasDefault := declaration.inherits = [] }]

def MetadataEntry.parts (entry : MetadataEntry) : List Part :=
  [{ key := "str"
     IsSaidBy := fun value => value = .string entry.format
     isRequired := true
     HasDefault := False },
   { key := "type"
     IsSaidBy := fun value => value = .string entry.typeToken
     isRequired := true
     HasDefault := False }]

/-- The parts of a record, given which values say an entry. -/
def MetadataRecord.partsWith (IsEntry : MetadataEntry → Json → Prop)
    (record : MetadataRecord) : List Part :=
  [{ key := "name"
     IsSaidBy := fun value => value = .string record.name
     isRequired := true
     HasDefault := False },
   { key := "level"
     IsSaidBy := fun value => value = .string record.level
     isRequired := true
     HasDefault := False },
   { key := "meta"
     IsSaidBy := fun value => ∃ values, value = .array values ∧
       List.Forall₂ IsEntry record.entries values
     isRequired := false
     HasDefault := record.entries = [] }]

/-! ## Entering members into a draft -/

section Drafts

variable {Reader : Type → Type} {Draft α : Type}

/-- The members of an object are entered into a draft one after the other, where a relation
says what a reader makes of a value. -/
inductive Enters (Reads : Reader (Draft → Draft) → Json → (Draft → Draft) → Prop)
    (form : RecordForm Reader Draft α) : Draft → List (String × Json) → Draft → Prop
  | done {draft : Draft} : Enters Reads form draft [] draft
  | skipped {draft last : Draft} {key : String} {value : Json}
      {members : List (String × Json)} :
      form.slot? key = none → Enters Reads form draft members last →
        Enters Reads form draft ((key, value) :: members) last
  | entered {draft last : Draft} {key : String} {value : Json}
      {members : List (String × Json)} {slot : Slot Reader Draft} {enter : Draft → Draft} :
      form.slot? key = some slot → slot.isFilled draft = false →
        Reads slot.reader value enter → Enters Reads form (enter draft) members last →
        Enters Reads form draft ((key, value) :: members) last

/-- Values are entered through slots in the order of these. -/
inductive EntersList (Reads : Reader (Draft → Draft) → Json → (Draft → Draft) → Prop) :
    List (Slot Reader Draft) → Draft → List Json → Draft → Prop
  | done {slots : List (Slot Reader Draft)} {draft : Draft} : EntersList Reads slots draft [] draft
  | entered {slot : Slot Reader Draft} {slots : List (Slot Reader Draft)} {draft last : Draft}
      {value : Json} {values : List Json} {enter : Draft → Draft} :
      Reads slot.reader value enter → EntersList Reads slots (enter draft) values last →
        EntersList Reads (slot :: slots) draft (value :: values) last

/-- A slot through which a part is entered, where a draft stands for the keys met so far. -/
structure Slot.Takes (slot : Slot Reader Draft)
    (Reads : Reader (Draft → Draft) → Json → (Draft → Draft) → Prop)
    (draft : (String → Bool) → Draft) (part : Part) : Prop where
  key_eq : slot.key = part.key
  isFilled_eq : ∀ met, slot.isFilled (draft met) = met part.key
  reads : ∀ value, part.IsSaidBy value → ∃ enter, Reads slot.reader value enter ∧
    ∀ met, enter (draft met) = draft (Function.update met part.key true)

/-- A form that makes a record of its parts, whatever the order in which they are met. -/
structure RecordForm.Collects (form : RecordForm Reader Draft α)
    (Reads : Reader (Draft → Draft) → Json → (Draft → Draft) → Prop)
    (draft : (String → Bool) → Draft) (parts : List Part) (record : α) : Prop where
  blank_eq : form.blank = draft fun _ => false
  slots : List.Forall₂ (fun slot part => slot.Takes Reads draft part) form.slots parts
  finish_eq_ok : ∀ met, (∀ part ∈ parts, met part.key = true ∨ part.MayBeAbsent) →
    form.finish (draft met) = .ok record
  finish_eq_error : ∀ met, (∃ part ∈ parts, part.isRequired = true ∧ met part.key = false) →
    ∃ part ∈ parts, part.isRequired = true ∧ met part.key = false ∧
      form.finish (draft met) = .error part.key

theorem mem_valuesAt {key : String} {value : Json} {members : List (String × Json)}
    (hmem : (key, value) ∈ members) : value ∈ valuesAt key members := by
  simp only [valuesAt, List.mem_map, List.mem_filter, decide_eq_true_eq]
  exact ⟨(key, value), ⟨hmem, rfl⟩, rfl⟩

theorem valuesAt_cons_of_eq (key : String) (value : Json) (members : List (String × Json)) :
    valuesAt key ((key, value) :: members) = value :: valuesAt key members := by
  simp [valuesAt]

theorem valuesAt_cons_of_ne {key other : String} (hne : other ≠ key) (value : Json)
    (members : List (String × Json)) :
    valuesAt key ((other, value) :: members) = valuesAt key members := by
  simp [valuesAt, hne]

namespace RecordForm.Collects

variable {form : RecordForm Reader Draft α}
  {Reads : Reader (Draft → Draft) → Json → (Draft → Draft) → Prop}
  {draft : (String → Bool) → Draft} {parts : List Part} {record : α}
  {members : List (String × Json)}

theorem exists_part (hcollects : form.Collects Reads draft parts record) {key : String}
    {slot : Slot Reader Draft} (hslot : form.slot? key = some slot) :
    ∃ part ∈ parts, part.key = key ∧ slot.Takes Reads draft part := by
  have hkey : slot.key = key := by
    simpa using List.find?_some hslot
  have hmem : slot ∈ form.slots := List.mem_of_find?_eq_some hslot
  rcases exists_mem_right_of_forall₂ hcollects.slots hmem with ⟨part, hpart, htakes⟩
  exact ⟨part, hpart, htakes.key_eq.symm.trans hkey, htakes⟩

theorem key_ne_of_slot?_eq_none (hcollects : form.Collects Reads draft parts record)
    {key : String} (hslot : form.slot? key = none) : ∀ part ∈ parts, key ≠ part.key := by
  intro part hpart heq
  rcases exists_mem_left_of_forall₂ hcollects.slots hpart with ⟨slot, hmem, htakes⟩
  have hne := List.find?_eq_none.mp hslot slot hmem
  simp [htakes.key_eq, heq] at hne

/-- Members are entered if none of them says again what has been met or said before. -/
theorem exists_enters (hcollects : form.Collects Reads draft parts record)
    (met : String → Bool)
    (hmembers : ∀ part ∈ parts, valuesAt part.key members = [] ∨
      met part.key = false ∧ ∃ value, valuesAt part.key members = [value] ∧
        part.IsSaidBy value) :
    ∃ last, Enters Reads form (draft met) members (draft last) ∧
      ∀ part ∈ parts, last part.key = (met part.key || !(valuesAt part.key members).isEmpty) := by
  induction members generalizing met with
  | nil => exact ⟨met, .done, by simp [valuesAt]⟩
  | cons member members ih =>
      rcases member with ⟨key, value⟩
      cases hslot : form.slot? key with
      | none =>
          have hne := hcollects.key_ne_of_slot?_eq_none hslot
          have hrest : ∀ part ∈ parts,
              valuesAt part.key ((key, value) :: members) = valuesAt part.key members :=
            fun part hpart => valuesAt_cons_of_ne (hne part hpart) value members
          rcases ih met (fun part hpart => hrest part hpart ▸ hmembers part hpart) with
            ⟨last, henters, hlast⟩
          refine ⟨last, .skipped hslot henters, ?_⟩
          intro part hpart
          rw [hrest part hpart]
          exact hlast part hpart
      | some slot =>
          rcases hcollects.exists_part hslot with ⟨part, hpart, rfl, htakes⟩
          have hsaid := hmembers part hpart
          rw [valuesAt_cons_of_eq] at hsaid
          rcases hsaid with hnone | ⟨hunmet, said, hvalues, hsays⟩
          · simp at hnone
          rcases List.cons.inj hvalues with ⟨rfl, hnoMore⟩
          rcases htakes.reads value hsays with ⟨enter, hreads, henter⟩
          have hothers : ∀ other ∈ parts, valuesAt other.key members = [] ∨
              Function.update met part.key true other.key = false ∧
                ∃ value, valuesAt other.key members = [value] ∧ other.IsSaidBy value := by
            intro other hother
            by_cases heq : part.key = other.key
            · exact .inl (heq ▸ hnoMore)
            · have hsame := hmembers other hother
              rw [valuesAt_cons_of_ne heq] at hsame
              rwa [Function.update_of_ne (Ne.symm heq)]
          rcases ih _ hothers with ⟨last, henters, hlast⟩
          refine ⟨last, ?_, ?_⟩
          · have hfree : slot.isFilled (draft met) = false := by
              rw [htakes.isFilled_eq, hunmet]
            rw [← henter] at henters
            exact .entered hslot hfree hreads henters
          · intro other hother
            rw [hlast other hother]
            by_cases heq : part.key = other.key
            · rw [← heq, valuesAt_cons_of_eq]
              simp
            · rw [Function.update_of_ne (Ne.symm heq), valuesAt_cons_of_ne heq]

theorem enters_of_stands (hcollects : form.Collects Reads draft parts record)
    (hmembers : ∀ part ∈ parts, part.Stands members ∨ part.IsMissing members) :
    ∃ last, Enters Reads form form.blank members (draft last) ∧
      ∀ part ∈ parts, last part.key = !(valuesAt part.key members).isEmpty := by
  have hunmet : ∀ part ∈ parts, valuesAt part.key members = [] ∨
      (fun _ => false : String → Bool) part.key = false ∧
        ∃ value, valuesAt part.key members = [value] ∧ part.IsSaidBy value := by
    intro part hpart
    rcases hmembers part hpart with hstands | hmissing
    · cases hstands with
      | said hvalues hsays => exact .inr ⟨rfl, _, hvalues, hsays⟩
      | absent hnone _ => exact .inl hnone
    · exact .inl hmissing.2
  rw [hcollects.blank_eq]
  simpa using hcollects.exists_enters (fun _ => false) hunmet

theorem enters_of_objectPresents (hcollects : form.Collects Reads draft parts record)
    (hpresents : ObjectPresents parts members) :
    ∃ last, Enters Reads form form.blank members last ∧ form.finish last = .ok record := by
  rcases hcollects.enters_of_stands fun part hpart => .inl (hpresents part hpart) with
    ⟨last, henters, hlast⟩
  refine ⟨draft last, henters, hcollects.finish_eq_ok last ?_⟩
  intro part hpart
  rw [hlast part hpart]
  cases hpresents part hpart with
  | said hvalues _ => simp [hvalues]
  | absent _ habsent => exact .inr habsent

theorem enters_of_objectLacks (hcollects : form.Collects Reads draft parts record)
    (hlacks : ObjectLacks parts members) :
    ∃ part ∈ parts, part.IsMissing members ∧
      ∃ last, Enters Reads form form.blank members last ∧ form.finish last = .error part.key := by
  rcases hcollects.enters_of_stands hlacks.others with ⟨last, henters, hlast⟩
  rcases hlacks.missing with ⟨missing, hmem, hmissing⟩
  have hunmet : ∃ part ∈ parts, part.isRequired = true ∧ last part.key = false := by
    refine ⟨missing, hmem, hmissing.1, ?_⟩
    simp [hlast missing hmem, hmissing.2]
  rcases hcollects.finish_eq_error last hunmet with ⟨part, hpart, hrequired, hfree, hfinish⟩
  refine ⟨part, hpart, ⟨hrequired, ?_⟩, draft last, henters, hfinish⟩
  simpa [hlast part hpart] using hfree

theorem exists_entersList {slots : List (Slot Reader Draft)} {rest : List Part}
    {values : List Json} (hpresents : ListPresents rest values)
    (hslots : List.Forall₂ (fun slot part => slot.Takes Reads draft part) slots rest)
    (met : String → Bool) :
    ∃ last, EntersList Reads slots (draft met) values (draft last) ∧
      (∀ part ∈ rest, last part.key = true ∨ part.MayBeAbsent) ∧
      ∀ key, met key = true → last key = true := by
  induction hpresents generalizing slots met with
  | ended habsent => exact ⟨met, .done, fun part hpart => .inr (habsent part hpart), by simp⟩
  | @next part _ value _ hsays _ ih =>
      cases hslots with
      | cons htakes hrest =>
          rcases htakes.reads value hsays with ⟨enter, hreads, henter⟩
          rcases ih hrest (Function.update met part.key true) with
            ⟨last, henters, hparts, hkept⟩
          have hmet : ∀ key, met key = true → last key = true := by
            intro key hkey
            apply hkept
            by_cases heq : key = part.key
            · rw [heq, Function.update_self]
            · rwa [Function.update_of_ne heq]
          have hfirst : last part.key = true := hkept _ (by rw [Function.update_self])
          rw [← henter] at henters
          exact ⟨last, .entered hreads henters,
            List.forall_mem_cons.mpr ⟨.inl hfirst, hparts⟩, hmet⟩

theorem enters_of_listPresents (hcollects : form.Collects Reads draft parts record)
    {values : List Json} (hpresents : ListPresents parts values) :
    ∃ last, EntersList Reads form.slots form.blank values last ∧
      form.finish last = .ok record := by
  rw [hcollects.blank_eq]
  rcases exists_entersList hpresents hcollects.slots fun _ => false with
    ⟨last, henters, hparts, _⟩
  exact ⟨draft last, henters, hcollects.finish_eq_ok last hparts⟩

end RecordForm.Collects

end Drafts

/-! ## Readings of declarations -/

/-- What the readers of a notation make of values: what is read of texts, lists and objects
follows from what is read of their parts. -/
structure Reading (Reader : Type → Type) [Decoder Reader] where
  Reads : {α : Type} → Reader α → Json → α → Prop
  text (content : String) : Reads Decoder.text (.string content) content
  map {α β : Type} {f : α → β} {reader : Reader α} {value : Json} {a : α} :
    Reads reader value a → Reads (f <$> reader) value (f a)
  list {α : Type} {item : Reader α} {values : List Json} {items : List α} :
    List.Forall₂ (Reads item) values items → Reads (Decoder.list item) (.array values) items
  record {Draft α : Type} {form : RecordForm Reader Draft α} {members : List (String × Json)}
    {last : Draft} {a : α} :
    Enters Reads form form.blank members last → form.finish last = .ok a →
      Reads (Decoder.record form) (.object members) a

/-- What is there of a member once its key has been met. -/
def whenMet {α : Type} (met : Bool) (a : α) : Option α :=
  if met then some a else none

@[simp] theorem isSome_whenMet {α : Type} (met : Bool) (a : α) :
    (whenMet met a).isSome = met := by
  cases met <;> rfl

@[simp] theorem whenMet_true {α : Type} (a : α) : whenMet true a = some a :=
  rfl

theorem getD_whenMet {α : Type} {met : Bool} {a default : α}
    (hdefault : met = true ∨ a = default) : (whenMet met a).getD default = a := by
  cases met with
  | true => rfl
  | false => simpa [whenMet, eq_comm] using hdefault

def ErrorDeclaration.draftOf (declaration : ErrorDeclaration) (met : String → Bool) :
    ErrorDeclaration.Draft where
  name := whenMet (met "name") declaration.name
  description := whenMet (met "description") declaration.description
  inherits := whenMet (met "inherits") declaration.inherits

def MetadataEntry.draftOf (entry : MetadataEntry) (met : String → Bool) :
    MetadataEntry.Draft where
  format := whenMet (met "str") entry.format
  typeToken := whenMet (met "type") entry.typeToken

def MetadataRecord.draftOf (record : MetadataRecord) (met : String → Bool) :
    MetadataRecord.Draft where
  name := whenMet (met "name") record.name
  level := whenMet (met "level") record.level
  entries := whenMet (met "meta") record.entries

namespace Reading

variable {Reader : Type → Type} [Decoder Reader] (reading : Reading Reader)

theorem reads_texts (texts : List String) :
    reading.Reads (Decoder.list Decoder.text) (.array (texts.map .string)) texts := by
  apply reading.list
  rw [List.forall₂_map_left_iff]
  exact List.forall₂_same.mpr fun content _ => reading.text content

/-- A slot that reads one value and keeps it takes the part that this value says. -/
theorem takes {Draft β : Type} {draft : (String → Bool) → Draft} {part : Part} {key : String}
    {reader : Reader β} (content : β) {enter : β → Draft → Draft} {isFilled : Draft → Bool}
    (hkey : key = part.key)
    (hreads : ∀ value, part.IsSaidBy value → reading.Reads reader value content)
    (hfilled : ∀ met, isFilled (draft met) = met part.key)
    (henter : ∀ met,
      enter content (draft met) = draft (Function.update met part.key true)) :
    Slot.Takes { key, reader := enter <$> reader, isFilled } reading.Reads draft part where
  key_eq := hkey
  isFilled_eq := hfilled
  reads := by
    intro value hsays
    exact ⟨enter content, reading.map (hreads value hsays), henter⟩

theorem takes_text {Draft : Type} {draft : (String → Bool) → Draft} {part : Part} {key : String}
    (content : String) {enter : String → Draft → Draft} {isFilled : Draft → Bool}
    (hkey : key = part.key) (hsaid : part.IsSaidBy = fun value => value = .string content)
    (hfilled : ∀ met, isFilled (draft met) = met part.key)
    (henter : ∀ met,
      enter content (draft met) = draft (Function.update met part.key true)) :
    Slot.Takes { key, reader := enter <$> Decoder.text, isFilled } reading.Reads draft part := by
  apply reading.takes content hkey _ hfilled henter
  rw [hsaid]
  rintro value rfl
  exact reading.text content

theorem collects_errorDeclaration (declaration : ErrorDeclaration) :
    (ErrorDeclaration.form Reader).Collects reading.Reads declaration.draftOf
      declaration.parts declaration where
  blank_eq := rfl
  slots := by
    refine .cons ?_ (.cons ?_ (.cons ?_ .nil))
    · apply reading.takes_text declaration.name
      · rfl
      · rfl
      · exact fun met => isSome_whenMet _ _
      · simp [ErrorDeclaration.draftOf]
    · apply reading.takes_text declaration.description
      · rfl
      · rfl
      · exact fun met => isSome_whenMet _ _
      · simp [ErrorDeclaration.draftOf]
    · apply reading.takes declaration.inherits
      · rfl
      · rintro value rfl
        exact reading.reads_texts declaration.inherits
      · exact fun met => isSome_whenMet _ _
      · simp [ErrorDeclaration.draftOf]
  finish_eq_ok := by
    intro met hmet
    simp only [ErrorDeclaration.parts, Part.MayBeAbsent, List.forall_mem_cons] at hmet
    rcases hmet with ⟨hname, hdescription, hinherits, _⟩
    simp only [Bool.true_eq_false, false_and, or_false, true_and] at hname hdescription hinherits
    simp only [ErrorDeclaration.form, ErrorDeclaration.Draft.finish, ErrorDeclaration.draftOf,
      hname, getD_whenMet hdescription, getD_whenMet hinherits]
    rfl
  finish_eq_error := by
    intro met hmissing
    have hname : met "name" = false := by
      simpa [ErrorDeclaration.parts] using hmissing
    refine ⟨_, List.mem_cons_self, rfl, hname, ?_⟩
    simp only [ErrorDeclaration.form, ErrorDeclaration.Draft.finish, ErrorDeclaration.draftOf,
      hname]
    rfl

theorem collects_metadataEntry (entry : MetadataEntry) :
    (MetadataEntry.form Reader).Collects reading.Reads entry.draftOf entry.parts entry where
  blank_eq := rfl
  slots := by
    refine .cons ?_ (.cons ?_ .nil)
    · apply reading.takes_text entry.format
      · rfl
      · rfl
      · exact fun met => isSome_whenMet _ _
      · simp [MetadataEntry.draftOf]
    · apply reading.takes_text entry.typeToken
      · rfl
      · rfl
      · exact fun met => isSome_whenMet _ _
      · simp [MetadataEntry.draftOf]
  finish_eq_ok := by
    intro met hmet
    simp only [MetadataEntry.parts, Part.MayBeAbsent, List.forall_mem_cons] at hmet
    rcases hmet with ⟨hformat, htype, _⟩
    simp only [Bool.true_eq_false, false_and, or_false] at hformat htype
    simp only [MetadataEntry.form, MetadataEntry.Draft.finish, MetadataEntry.draftOf, hformat,
      htype]
    rfl
  finish_eq_error := by
    intro met hmissing
    cases hformat : met "str" with
    | false =>
        refine ⟨_, List.mem_cons_self, rfl, hformat, ?_⟩
        simp only [MetadataEntry.form, MetadataEntry.Draft.finish, MetadataEntry.draftOf, hformat]
        rfl
    | true =>
        have htype : met "type" = false := by
          simpa [MetadataEntry.parts, hformat] using hmissing
        refine ⟨_, List.mem_cons_of_mem _ List.mem_cons_self, rfl, htype, ?_⟩
        simp only [MetadataEntry.form, MetadataEntry.Draft.finish, MetadataEntry.draftOf, hformat,
          htype]
        rfl

theorem collects_metadataRecord {IsEntry : MetadataEntry → Json → Prop}
    (hentries : ∀ entry value, IsEntry entry value →
      reading.Reads (Decoder.record (MetadataEntry.form Reader)) value entry)
    (record : MetadataRecord) :
    (MetadataRecord.form Reader).Collects reading.Reads record.draftOf
      (record.partsWith IsEntry) record where
  blank_eq := rfl
  slots := by
    refine .cons ?_ (.cons ?_ (.cons ?_ .nil))
    · apply reading.takes_text record.name
      · rfl
      · rfl
      · exact fun met => isSome_whenMet _ _
      · simp [MetadataRecord.draftOf]
    · apply reading.takes_text record.level
      · rfl
      · rfl
      · exact fun met => isSome_whenMet _ _
      · simp [MetadataRecord.draftOf]
    · apply reading.takes record.entries
      · rfl
      · rintro value ⟨values, rfl, hvalues⟩
        exact reading.list (hvalues.flip.imp fun value entry hentry => hentries entry value hentry)
      · exact fun met => isSome_whenMet _ _
      · simp [MetadataRecord.draftOf]
  finish_eq_ok := by
    intro met hmet
    simp only [MetadataRecord.partsWith, Part.MayBeAbsent, List.forall_mem_cons] at hmet
    rcases hmet with ⟨hname, hlevel, hmeta, _⟩
    simp only [Bool.true_eq_false, false_and, or_false, true_and] at hname hlevel hmeta
    simp only [MetadataRecord.form, MetadataRecord.Draft.finish, MetadataRecord.draftOf, hname,
      hlevel, getD_whenMet hmeta]
    rfl
  finish_eq_error := by
    intro met hmissing
    cases hname : met "name" with
    | false =>
        refine ⟨_, List.mem_cons_self, rfl, hname, ?_⟩
        simp only [MetadataRecord.form, MetadataRecord.Draft.finish, MetadataRecord.draftOf, hname]
        rfl
    | true =>
        have hlevel : met "level" = false := by
          simpa [MetadataRecord.partsWith, hname] using hmissing
        refine ⟨_, List.mem_cons_of_mem _ List.mem_cons_self, rfl, hlevel, ?_⟩
        simp only [MetadataRecord.form, MetadataRecord.Draft.finish, MetadataRecord.draftOf, hname,
          hlevel]
        rfl

end Reading

end ErrorTaxonomy
