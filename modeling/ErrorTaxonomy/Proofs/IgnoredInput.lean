import ErrorTaxonomy.Proofs.Acceptance

/-!
# Ignored input

Of a declaration a compilation sees its name and description, the interface of
its fragment, the parent that it names first and the first record of its name in
its own fragment.  Inputs that show the same of all declarations, one after the
other, have the same outcome, be it a model or an error.  How the declarations
are spread over fragments, the records that are not the first of a declared
name, ancestors after the first and qualifiers are never seen.
-/

namespace ErrorTaxonomy

/-- Two declarations, each with its fragment, show a compilation the same. -/
structure SameEssentials (declared other : Fragment × ErrorDeclaration) : Prop where
  name_eq : other.2.name = declared.2.name
  description_eq : other.2.description = declared.2.description
  interface_eq : other.1.interface = declared.1.interface
  parent_iff : ∀ parent, declared.2.NamesParent parent ↔ other.2.NamesParent parent
  record_iff : ∀ record, declared.1.FirstRecord declared.2.name record ↔
    other.1.FirstRecord other.2.name record

variable {declared other : Fragment × ErrorDeclaration}

theorem SameEssentials.parent?_eq (hsame : SameEssentials declared other) :
    other.2.parent? = declared.2.parent? := by
  apply Option.ext
  intro parent
  rw [ErrorDeclaration.parent?_eq_some_iff, ErrorDeclaration.parent?_eq_some_iff,
    hsame.parent_iff]

theorem SameEssentials.record?_eq (hsame : SameEssentials declared other) :
    other.1.record? other.2.name = declared.1.record? declared.2.name := by
  apply Option.ext
  intro record
  rw [Fragment.record?_eq_some_iff, Fragment.record?_eq_some_iff, hsame.record_iff]

theorem sameEssentials_of_eq (hname : other.2.name = declared.2.name)
    (hdescription : other.2.description = declared.2.description)
    (hinterface : other.1.interface = declared.1.interface)
    (hparent : other.2.parent? = declared.2.parent?)
    (hrecord : other.1.record? other.2.name = declared.1.record? declared.2.name) :
    SameEssentials declared other := by
  refine ⟨hname, hdescription, hinterface, ?_, ?_⟩
  · intro parent
    rw [← ErrorDeclaration.parent?_eq_some_iff, ← ErrorDeclaration.parent?_eq_some_iff, hparent]
  · intro record
    rw [← Fragment.record?_eq_some_iff, ← Fragment.record?_eq_some_iff, hrecord]

namespace SameEssentials

theorem encounter_name_eq (hsame : SameEssentials declared other) :
    (encounterOf other).name = (encounterOf declared).name :=
  hsame.name_eq

theorem pendingWith_eq (hsame : SameEssentials declared other) (record : MetadataRecord) :
    (encounterOf other).pendingWith record = (encounterOf declared).pendingWith record := by
  unfold Encounter.pendingWith
  rw [hsame.encounter_name_eq]
  simp only [encounterOf, hsame.interface_eq, hsame.description_eq, hsame.parent?_eq]

theorem pending_eq (hsame : SameEssentials declared other) (met : List String) :
    (encounterOf other).pending met = (encounterOf declared).pending met := by
  have hrecord : (encounterOf other).record? = (encounterOf declared).record? :=
    hsame.record?_eq
  unfold Encounter.pending
  rw [hsame.encounter_name_eq, hrecord]
  simp only [hsame.pendingWith_eq]

end SameEssentials

theorem outcome_validateAll_of_sameEssentials
    {listed others : List (Fragment × ErrorDeclaration)}
    (hsame : List.Forall₂ SameEssentials listed others) (met : List String) :
    (validateAll met (others.map encounterOf)).outcome =
      (validateAll met (listed.map encounterOf)).outcome := by
  induction hsame generalizing met with
  | nil => rfl
  | cons hfirst _ ih =>
      simp only [List.map_cons, validateAll, Traced.outcome_bind, outcome_validated,
        hfirst.pending_eq, hfirst.encounter_name_eq, ih]

theorem outcome_compile_of_sameEssentials {fragments others : List Fragment}
    (hsame : List.Forall₂ SameEssentials (declarations fragments) (declarations others))
    (strategy : OrderingStrategy) :
    (compile strategy others).outcome = (compile strategy fragments).outcome := by
  have hvalidated := outcome_validateAll_of_sameEssentials hsame []
  rw [← encounters_eq, ← encounters_eq] at hvalidated
  rw [outcome_compile, outcome_compile, hvalidated]

/-- Edits of one piece of an input of which nothing is seen. -/
inductive IgnoredEdit : List Fragment → List Fragment → Prop
  | split {fragment : Fragment} {first second : List ErrorDeclaration} :
      fragment.errors = first ++ second →
        IgnoredEdit [fragment]
          [{ fragment with errors := first }, { fragment with errors := second }]
  | noDeclarations {fragment : Fragment} :
      fragment.errors = [] → IgnoredEdit [] [fragment]
  | undeclaredRecords {fragment : Fragment}
      {earlier records records' later : List MetadataRecord} :
      fragment.metadata = earlier ++ records ++ later →
        (∀ record ∈ records ++ records', ∀ declaration ∈ fragment.errors,
          record.name ≠ declaration.name) →
        IgnoredEdit [fragment] [{ fragment with metadata := earlier ++ records' ++ later }]
  | laterRecord {fragment : Fragment} {earlier later : List MetadataRecord}
      {recorded record : MetadataRecord} :
      fragment.metadata = earlier ++ later → recorded ∈ earlier →
        record.name = recorded.name →
        IgnoredEdit [fragment] [{ fragment with metadata := earlier ++ record :: later }]
  | laterAncestors {fragment : Fragment} {before after : List ErrorDeclaration}
      {declaration : ErrorDeclaration} {qualified : String} {others others' : List String} :
      fragment.errors = before ++ declaration :: after →
        declaration.inherits = qualified :: others →
        IgnoredEdit [fragment]
          [{ fragment with
              errors := before ++ { declaration with inherits := qualified :: others' } :: after }]
  | qualifier {fragment : Fragment} {before after : List ErrorDeclaration}
      {declaration : ErrorDeclaration} {qualified qualified' name : String}
      {others : List String} :
      fragment.errors = before ++ declaration :: after →
        declaration.inherits = qualified :: others →
        IsLastComponent qualified name → IsLastComponent qualified' name →
        IgnoredEdit [fragment]
          [{ fragment with
              errors := before ++ { declaration with inherits := qualified' :: others } :: after }]

theorem declarations_append (fragments others : List Fragment) :
    declarations (fragments ++ others) = declarations fragments ++ declarations others :=
  List.flatMap_append

theorem declarations_singleton (fragment : Fragment) :
    declarations [fragment] = fragment.errors.map fun declaration => (fragment, declaration) :=
  List.flatMap_singleton _ _

/-- Records are passed over if none has the name or an earlier one has it too. -/
theorem Fragment.record?_of_passed {fragment : Fragment} {name : String}
    {earlier passed later : List MetadataRecord}
    (hmetadata : fragment.metadata = earlier ++ passed ++ later)
    (hpassed : ∀ record ∈ passed, record.name = name →
      ∃ recorded ∈ earlier, recorded.name = name) :
    fragment.record? name = (earlier ++ later).find? fun record => record.name = name := by
  rw [record?, hmetadata, List.find?_append, List.find?_append, List.find?_append]
  -- What is passed over only matters where no earlier record is found.
  cases hearlier : earlier.find? fun record => record.name = name with
  | some recorded => simp
  | none =>
      have hnone : passed.find? (fun record => record.name = name) = none := by
        rw [List.find?_eq_none] at hearlier ⊢
        intro record hmem hname
        obtain ⟨recorded, hrecorded, hsame⟩ := hpassed record hmem (of_decide_eq_true hname)
        exact hearlier recorded hrecorded (decide_eq_true hsame)
      rw [hnone, Option.none_or, Option.none_or]

section Edits

variable (fragment : Fragment)

/-- Fragments of one interface in which each declaration has the same first
record show the same. -/
theorem forall₂_of_record?_eq (edited : Fragment)
    (hinterface : edited.interface = fragment.interface) (errors : List ErrorDeclaration)
    (hrecord : ∀ declaration ∈ errors,
      edited.record? declaration.name = fragment.record? declaration.name) :
    List.Forall₂ SameEssentials (errors.map fun declaration => (fragment, declaration))
      (errors.map fun declaration => (edited, declaration)) := by
  rw [List.forall₂_map_left_iff, List.forall₂_map_right_iff, List.forall₂_same]
  intro declaration hmem
  exact sameEssentials_of_eq rfl rfl hinterface rfl (hrecord declaration hmem)

theorem forall₂_with_errors (errors others : List ErrorDeclaration) :
    List.Forall₂ SameEssentials (errors.map fun declaration => (fragment, declaration))
      (errors.map fun declaration => ({ fragment with errors := others }, declaration)) :=
  forall₂_of_record?_eq fragment { fragment with errors := others } rfl errors
    fun _ _ => rfl

theorem forall₂_of_split {first second : List ErrorDeclaration}
    (herrors : fragment.errors = first ++ second) :
    List.Forall₂ SameEssentials (declarations [fragment])
      (declarations [{ fragment with errors := first }, { fragment with errors := second }]) := by
  have hpieces : declarations
        [{ fragment with errors := first }, { fragment with errors := second }] =
      declarations [{ fragment with errors := first }] ++
        declarations [{ fragment with errors := second }] :=
    declarations_append [_] [_]
  rw [hpieces, declarations_singleton, declarations_singleton, declarations_singleton, herrors,
    List.map_append]
  exact List.rel_append (forall₂_with_errors fragment first first)
    (forall₂_with_errors fragment second second)

theorem forall₂_with_metadata {metadata : List MetadataRecord}
    (hrecord : ∀ declaration ∈ fragment.errors,
      ({ fragment with metadata } : Fragment).record? declaration.name =
        fragment.record? declaration.name) :
    List.Forall₂ SameEssentials (declarations [fragment])
      (declarations [{ fragment with metadata }]) := by
  rw [declarations_singleton, declarations_singleton]
  exact forall₂_of_record?_eq fragment { fragment with metadata } rfl fragment.errors hrecord

theorem forall₂_of_replaced {before after : List ErrorDeclaration}
    {declaration : ErrorDeclaration} (replacement : ErrorDeclaration)
    (herrors : fragment.errors = before ++ declaration :: after)
    (hname : replacement.name = declaration.name)
    (hdescription : replacement.description = declaration.description)
    (hparent : replacement.parent? = declaration.parent?) :
    List.Forall₂ SameEssentials (declarations [fragment])
      (declarations [{ fragment with errors := before ++ replacement :: after }]) := by
  rw [declarations_singleton, declarations_singleton, herrors, List.map_append, List.map_append,
    List.map_cons, List.map_cons]
  have hreplaced : SameEssentials (fragment, declaration)
      ({ fragment with errors := before ++ replacement :: after }, replacement) := by
    refine sameEssentials_of_eq hname hdescription ?_ hparent ?_
    · rfl
    · rw [hname]
      rfl
  apply List.rel_append
  · exact forall₂_with_errors fragment before _
  · exact .cons hreplaced (forall₂_with_errors fragment after _)

end Edits

theorem forall₂_of_ignoredEdit {piece edited : List Fragment}
    (hedit : IgnoredEdit piece edited) :
    List.Forall₂ SameEssentials (declarations piece) (declarations edited) := by
  cases hedit with
  | split herrors => exact forall₂_of_split _ herrors
  | noDeclarations herrors =>
      rw [declarations_singleton, herrors]
      exact .nil
  | @undeclaredRecords fragment earlier records records' later hmetadata hundeclared =>
      apply forall₂_with_metadata
      intro declaration hmem
      have hpassed : ∀ record ∈ records ++ records', record.name = declaration.name →
          ∃ recorded ∈ earlier, recorded.name = declaration.name := fun record hrecord hname =>
        absurd hname (hundeclared record hrecord declaration hmem)
      rw [List.forall_mem_append] at hpassed
      rw [Fragment.record?_of_passed hmetadata hpassed.1]
      exact Fragment.record?_of_passed rfl hpassed.2
  | @laterRecord fragment earlier later recorded record hmetadata hrecorded hname =>
      apply forall₂_with_metadata
      intro declaration _
      have hsplit : earlier ++ record :: later = earlier ++ [record] ++ later := by simp
      rw [Fragment.record?_of_passed hsplit]
      · rw [Fragment.record?, hmetadata]
      · intro other hother hdeclared
        obtain rfl := List.mem_singleton.mp hother
        exact ⟨recorded, hrecorded, hname.symm.trans hdeclared⟩
  | laterAncestors herrors hinherits =>
      apply forall₂_of_replaced _ _ herrors
      · rfl
      · rfl
      · simp [ErrorDeclaration.parent?, hinherits]
  | qualifier herrors hinherits hname hname' =>
      rw [← lastComponent_eq_iff] at hname hname'
      apply forall₂_of_replaced _ _ herrors
      · rfl
      · rfl
      · simp [ErrorDeclaration.parent?, hinherits, hname, hname']

/-- The outcome, be it a model or an error, only depends on what declarations
show, so edits of which nothing is seen never change it. -/
theorem outcome_compile_ignores (strategy : OrderingStrategy) :
    (∀ fragments others : List Fragment,
      List.Forall₂ SameEssentials (declarations fragments) (declarations others) →
        (compile strategy others).outcome = (compile strategy fragments).outcome) ∧
      ∀ before piece edited after : List Fragment, IgnoredEdit piece edited →
        (compile strategy (before ++ edited ++ after)).outcome =
          (compile strategy (before ++ piece ++ after)).outcome := by
  refine ⟨fun _ _ hsame => outcome_compile_of_sameEssentials hsame strategy, ?_⟩
  intro before piece edited after hedit
  apply outcome_compile_of_sameEssentials
  have hrefl : ∀ fragments,
      List.Forall₂ SameEssentials (declarations fragments) (declarations fragments) :=
    fun _ => List.forall₂_same.mpr fun _ _ => sameEssentials_of_eq rfl rfl rfl rfl rfl
  simp only [declarations_append]
  exact List.rel_append (List.rel_append (hrefl before) (forall₂_of_ignoredEdit hedit))
    (hrefl after)

/-- The disk fragments with a fragment that declares nothing, another qualifier,
a second ancestor and other records. -/
def wordyDiskFragments : List Fragment :=
  [{ metadata := [{ name := "Full", level := "none" }] },
    { interface := some "disk"
      errors :=
        [{ name := "Full", description := "no space", inherits := ["v2.storage.Io", "Absent"] }]
      metadata :=
        [{ name := "Absent", level := "none" },
          { name := "Full", level := "ERR", entries := [⟨"ERRNO=%d", "int32"⟩] }] },
    { errors := [{ name := "Io" }]
      metadata := [{ name := "Io", level := "Warn" }] }]

theorem wordyDiskFragments_ignored :
    List.Forall₂ SameEssentials (declarations diskFragments)
        (declarations wordyDiskFragments) ∧
      IgnoredEdit [] (wordyDiskFragments.take 1) ∧
      (compile .queue wordyDiskFragments).outcome = (compile .queue diskFragments).outcome ∧
      (compile .queue (diskFragments ++ wordyDiskFragments.take 1 ++ [])).outcome =
        (compile .queue (diskFragments ++ [] ++ [])).outcome := by
  have hfull : SameEssentials (declarations diskFragments)[0]
      (declarations wordyDiskFragments)[0] :=
    sameEssentials_of_eq rfl rfl rfl (by decide +kernel) (by decide +kernel)
  have hio : SameEssentials (declarations diskFragments)[1]
      (declarations wordyDiskFragments)[1] :=
    sameEssentials_of_eq rfl rfl rfl (by decide +kernel) (by decide +kernel)
  have hsame : List.Forall₂ SameEssentials (declarations diskFragments)
      (declarations wordyDiskFragments) := .cons hfull (.cons hio .nil)
  have hedit : IgnoredEdit [] (wordyDiskFragments.take 1) := .noDeclarations rfl
  have hignores := outcome_compile_ignores .queue
  exact ⟨hsame, hedit, hignores.1 diskFragments wordyDiskFragments hsame,
    hignores.2 diskFragments [] _ [] hedit⟩

end ErrorTaxonomy
