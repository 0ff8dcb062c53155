import ErrorTaxonomy.Declaration
import ErrorTaxonomy.Validation
import Mathlib.Data.List.TakeWhile
import Mathlib.Tactic.SplitIfs

/-!
# Names and tokens

What the declarations mean by the texts they are written in: the part of a
qualified name after its last dot, the part of a format before its first equals
sign, and the tokens of the levels and of the types.  The functions that read
these texts find exactly what is meant.
-/

namespace ErrorTaxonomy

theorem takeWhile_ne_eq_iff {mark : Char} {text part : List Char} :
    text.takeWhile (· ≠ mark) = part ↔
      mark ∉ part ∧ (text = part ∨ ∃ rest, text = part ++ mark :: rest) := by
  constructor
  · rintro rfl
    have hfree : mark ∉ text.takeWhile (· ≠ mark) := by
      intro hmem
      have hkept := List.all_eq_true.mp List.all_takeWhile _ hmem
      simp at hkept
    refine ⟨hfree, ?_⟩
    have hsplit := List.takeWhile_append_dropWhile (p := (· ≠ mark)) (l := text)
    cases hdrop : text.dropWhile (· ≠ mark) with
    | nil =>
        rw [hdrop, List.append_nil] at hsplit
        exact .inl hsplit.symm
    | cons first rest =>
        have hmark : first = mark := by
          have hhead := List.head?_dropWhile_not (· ≠ mark) text
          rw [hdrop] at hhead
          simpa using hhead
        rw [hdrop, hmark] at hsplit
        exact .inr ⟨rest, hsplit.symm⟩
  · rintro ⟨hfree, hsplit⟩
    have hpart : ∀ char ∈ part, decide (char ≠ mark) = true := by
      intro char hmem
      rw [decide_eq_true_iff]
      rintro rfl
      exact hfree hmem
    rcases hsplit with rfl | ⟨rest, rfl⟩
    · exact List.takeWhile_eq_self_iff.mpr hpart
    · rw [List.takeWhile_append_of_pos hpart]
      simp

/-- The name is what stands after the last dot, or all if there is none. -/
def IsLastComponent (qualified name : String) : Prop :=
  '.' ∉ name.toList ∧
    (qualified = name ∨ ∃ qualifier, qualified = qualifier ++ "." ++ name)

theorem lastComponent_eq_iff {qualified name : String} :
    lastComponent qualified = name ↔ IsLastComponent qualified name := by
  have hreverse : lastComponent qualified = name ↔
      qualified.toList.reverse.takeWhile (· ≠ '.') = name.toList.reverse := by
    rw [lastComponent, ← String.toList_inj, String.toList_ofList, List.reverse_eq_iff]
  rw [hreverse, takeWhile_ne_eq_iff, List.mem_reverse, List.reverse_inj, String.toList_inj]
  refine and_congr_right' (or_congr_right ?_)
  constructor
  · rintro ⟨rest, hrest⟩
    rw [List.reverse_eq_iff] at hrest
    refine ⟨String.ofList rest.reverse, String.toList_inj.mp ?_⟩
    simpa using hrest
  · rintro ⟨qualifier, rfl⟩
    exact ⟨qualifier.toList.reverse, by simp⟩

/-- The name is what stands before the first equals sign, or all if there is
none. -/
def IsShortName (format name : String) : Prop :=
  '=' ∉ name.toList ∧ (format = name ∨ ∃ rest, format = name ++ "=" ++ rest)

theorem shortName_eq_iff {format name : String} :
    shortName format = name ↔ IsShortName format name := by
  rw [← String.toList_inj, shortName_toList, takeWhile_ne_eq_iff, String.toList_inj]
  refine and_congr_right' (or_congr_right ?_)
  constructor
  · rintro ⟨rest, hrest⟩
    refine ⟨String.ofList rest, String.toList_inj.mp ?_⟩
    simpa using hrest
  · rintro ⟨rest, rfl⟩
    exact ⟨rest.toList, by simp⟩

/-- No two entries have the same short name. -/
def DistinctFields (entries : List MetadataEntry) : Prop :=
  entries.Pairwise fun entry other =>
    ∀ name, IsShortName entry.format name → ¬ IsShortName other.format name

theorem nodup_map_shortName_iff {entries : List MetadataEntry} :
    (entries.map MetadataEntry.shortName).Nodup ↔ DistinctFields entries := by
  rw [DistinctFields, List.Nodup, List.pairwise_map]
  refine ⟨fun h => h.imp ?_, fun h => h.imp ?_⟩
  · intro entry other hne name hentry hother
    rw [← shortName_eq_iff] at hentry hother
    exact hne (hentry.trans hother.symm)
  · intro entry other hdistinct heq
    exact hdistinct _ (shortName_eq_iff.mp rfl) (shortName_eq_iff.mp heq.symm)

/-- The first ancestor that a declaration lists has the name. -/
def ErrorDeclaration.NamesParent (declaration : ErrorDeclaration) (parent : String) :
    Prop :=
  ∃ qualified others, declaration.inherits = qualified :: others ∧
    IsLastComponent qualified parent

theorem ErrorDeclaration.parent?_eq_some_iff {declaration : ErrorDeclaration}
    {parent : String} :
    declaration.parent? = some parent ↔ declaration.NamesParent parent := by
  unfold parent? NamesParent
  cases declaration.inherits with
  | nil => simp
  | cons qualified others => simp [lastComponent_eq_iff]

def Fragment.FirstRecord (fragment : Fragment) (name : String)
    (record : MetadataRecord) : Prop :=
  ∃ earlier later, fragment.metadata = earlier ++ record :: later ∧
    record.name = name ∧ ∀ other ∈ earlier, other.name ≠ name

theorem Fragment.record?_eq_some_iff {fragment : Fragment} {name : String}
    {record : MetadataRecord} :
    fragment.record? name = some record ↔ fragment.FirstRecord name record := by
  unfold record? FirstRecord
  rw [List.find?_eq_some_iff_append]
  constructor
  · rintro ⟨hname, earlier, later, hsplit, hearlier⟩
    exact ⟨earlier, later, hsplit, by simpa using hname, by simpa using hearlier⟩
  · rintro ⟨earlier, later, hsplit, hname, hearlier⟩
    exact ⟨by simpa using hname, earlier, later, hsplit, by simpa using hearlier⟩

theorem Fragment.record?_eq_none_iff {fragment : Fragment} {name : String} :
    fragment.record? name = none ↔ ∀ record ∈ fragment.metadata, record.name ≠ name := by
  rw [record?, List.find?_eq_none]
  simp only [decide_eq_true_eq, ne_eq]

namespace Level

/-- The lower-case tokens of a level. -/
def spellings : Level → List String
  | emergency => ["emerg", "emergency"]
  | alert => ["alert"]
  | critical => ["crit", "critical"]
  | error => ["err", "error"]
  | warning => ["warning", "warn"]
  | notice => ["notice"]
  | info => ["info"]
  | debug => ["debug"]

theorem ofLowerToken?_of_mem_spellings (level : Level) :
    ∀ token ∈ level.spellings, ofLowerToken? token = some level := by
  cases level <;> decide +kernel

theorem ofToken?_eq_some_iff {token : String} {level : Level} :
    ofToken? token = some level ↔ asciiLower token ∈ level.spellings := by
  constructor
  · intro hlevel
    unfold ofToken? ofLowerToken? at hlevel
    split_ifs at hlevel <;> cases hlevel <;> simp_all [spellings]
  · exact ofLowerToken?_of_mem_spellings level _

end Level

theorem FieldType.ofToken?_eq_some_iff {token : String} {type : FieldType} :
    ofToken? token = some type ↔ type.token = token := by
  constructor
  · intro htype
    unfold ofToken? at htype
    split_ifs at htype <;> cases htype <;> simp_all [FieldType.token]
  · rintro rfl
    exact ofToken?_token type

end ErrorTaxonomy
