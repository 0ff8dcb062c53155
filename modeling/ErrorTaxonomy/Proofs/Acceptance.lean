import ErrorTaxonomy.Proofs.CompiledListing

/-!
# Acceptance

Fragments are well formed if the declared names are distinct, every declaration
has a complete record of its name in its own fragment, every parent is declared
somewhere, and no error is its own ancestor.  Exactly the well-formed fragments
compile, and their model holds one definition for each declaration, made of the
declaration, its fragment and the first record of its name.
-/

namespace ErrorTaxonomy

open Hierarchy

/-- The declarations of all fragments, each with the fragment it belongs to. -/
def declarations (fragments : List Fragment) : List (Fragment × ErrorDeclaration) :=
  fragments.flatMap fun fragment =>
    fragment.errors.map fun declaration => (fragment, declaration)

def declaredNames (fragments : List Fragment) : List String :=
  (declarations fragments).map fun declared => declared.2.name

/-- Some declaration of the one name lists the other as its first ancestor. -/
def DeclaredParent (fragments : List Fragment) (child parent : String) : Prop :=
  ∃ declared ∈ declarations fragments,
    declared.2.name = child ∧ declared.2.NamesParent parent

/-- A record with a known level, distinct short names and known types. -/
structure MetadataRecord.Complete (record : MetadataRecord) : Prop where
  level_known : record.LevelKnown
  fields_distinct : DistinctFields record.entries
  types_known : ∀ entry ∈ record.entries, entry.Typed

structure WellFormed (fragments : List Fragment) : Prop where
  names_distinct : (declaredNames fragments).Nodup
  records_complete : ∀ declared ∈ declarations fragments, ∃ record,
    declared.1.FirstRecord declared.2.name record ∧ record.Complete
  parents_declared : ∀ child parent, DeclaredParent fragments child parent →
    parent ∈ declaredNames fragments
  acyclic : ∀ name, ¬ Relation.TransGen (DeclaredParent fragments) name name

/-- The definition that a declaration of a fragment stands for. -/
structure Declares (fragment : Fragment) (declaration : ErrorDeclaration)
    (definition : Definition) : Prop where
  name_eq : definition.name = declaration.name
  interface_eq : definition.interface = fragment.interface
  message_eq : definition.message = declaration.description
  parent_iff : ∀ parent,
    definition.parent = some parent ↔ declaration.NamesParent parent
  record : ∃ record, fragment.FirstRecord declaration.name record ∧
    Level.asciiLower record.level ∈ definition.level.spellings ∧
    List.Forall₂ MetadataEntry.Becomes record.entries definition.fields

def encounterOf (declared : Fragment × ErrorDeclaration) : Encounter where
  interface := declared.1.interface
  declaration := declared.2
  record? := declared.1.record? declared.2.name

variable {fragments : List Fragment}

theorem encounters_eq (fragments : List Fragment) :
    encounters fragments = (declarations fragments).map encounterOf := by
  unfold encounters declarations
  rw [List.map_flatMap]
  congr 1
  funext fragment
  rw [Fragment.encounters, List.map_map]
  rfl

theorem map_name_encounters (fragments : List Fragment) :
    (encounters fragments).map Encounter.name = declaredNames fragments := by
  rw [encounters_eq, List.map_map]
  rfl

theorem sound_and_typed_encounterOf_iff (declared : Fragment × ErrorDeclaration) :
    (encounterOf declared).Sound ∧ (encounterOf declared).Typed ↔
      ∃ record, declared.1.FirstRecord declared.2.name record ∧ record.Complete := by
  simp only [Encounter.Sound, Encounter.Typed, encounterOf, ← Fragment.record?_eq_some_iff]
  constructor
  · rintro ⟨⟨record, hrecord, hlevel, hnodup⟩, htyped⟩
    exact ⟨record, hrecord, hlevel, nodup_map_shortName_iff.mp hnodup,
      htyped record hrecord⟩
  · rintro ⟨record, hrecord, hlevel, hdistinct, htyped⟩
    refine ⟨⟨record, hrecord, hlevel, nodup_map_shortName_iff.mpr hdistinct⟩, ?_⟩
    intro other hother
    obtain rfl := Option.some.inj (hrecord.symm.trans hother)
    exact htyped

theorem inheritsName_iff_declaredParent :
    InheritsName ((encounters fragments).map Encounter.link) = DeclaredParent fragments := by
  funext child parent
  rw [InheritsName, encounters_eq, List.map_map, List.mem_map, DeclaredParent]
  simp only [Function.comp_apply, Encounter.link, encounterOf, Encounter.name, Prod.mk.injEq,
    ErrorDeclaration.parent?_eq_some_iff]

theorem exists_outcome_compile_iff_wellFormed (strategy : OrderingStrategy) :
    (∃ model, (compile strategy fragments).outcome = .ok model) ↔ WellFormed fragments := by
  have hlinks : ((encounters fragments).map Encounter.link).map Prod.fst =
      declaredNames fragments := by
    rw [← map_name_encounters, List.map_map]
    rfl
  rw [exists_outcome_compile_iff, map_name_encounters, ParentsNamed, Acyclic,
    inheritsName_iff_declaredParent, hlinks, encounters_eq, List.forall_mem_map]
  simp only [sound_and_typed_encounterOf_iff]
  constructor
  · rintro ⟨hnames, hrecords, hparents, hacyclic⟩
    exact ⟨hnames, hrecords, hparents, hacyclic⟩
  · rintro ⟨hnames, hrecords, hparents, hacyclic⟩
    exact ⟨hnames, hrecords, hparents, hacyclic⟩

theorem declares_of_leaves {declared : Fragment × ErrorDeclaration}
    {pending : PendingError} {definition : Definition}
    (hleaves : (encounterOf declared).Leaves pending) (hbecomes : pending.Becomes definition) :
    Declares declared.1 declared.2 definition := by
  rcases hleaves.record with ⟨record, hrecord, hlevel, -, hentries⟩
  exact {
    name_eq := hbecomes.name_eq.trans hleaves.name_eq
    interface_eq := hbecomes.interface_eq.trans hleaves.interface_eq
    message_eq := hbecomes.message_eq.trans hleaves.message_eq
    parent_iff := by
      intro parent
      rw [hbecomes.parent_eq, hleaves.parent_eq]
      exact ErrorDeclaration.parent?_eq_some_iff
    record := by
      refine ⟨record, Fragment.record?_eq_some_iff.mp hrecord, ?_, hentries ▸ hbecomes.fields⟩
      rw [hbecomes.level_eq]
      exact Level.ofToken?_eq_some_iff.mp hlevel
  }

theorem exists_perm_declares {strategy : OrderingStrategy} {model : Model}
    (hok : (compile strategy fragments).outcome = .ok model) :
    ∃ listing, model.definitions.Perm listing ∧
      List.Forall₂ (fun declared definition => Declares declared.1 declared.2 definition)
        (declarations fragments) listing := by
  rcases outcome_compile_eq_ok_iff.mp hok with ⟨pending, horders, hbecomes⟩
  rcases orders_iff.mp horders with ⟨-, hleaves, -⟩
  rw [encounters_eq, List.forall₂_map_left_iff] at hleaves
  have hperm := (compiledListing_perm PendingError.link pending).symm
  rcases List.perm_comp_forall₂ hperm hbecomes with ⟨listing, hlisting, hdefinitions⟩
  have hdeclares : List.Forall₂ (fun declared definition =>
      Declares declared.1 declared.2 definition) (declarations fragments) listing :=
    forall₂_comp hleaves hlisting fun _ _ _ hfirst hdefinition =>
      declares_of_leaves hfirst hdefinition
  exact ⟨listing, hdefinitions.symm, hdeclares⟩

/-- Exactly the well-formed fragments compile, with either strategy, and the
model holds one definition for each declaration and nothing else. -/
theorem compile_accepts_exactly_wellFormed (strategy : OrderingStrategy)
    (fragments : List Fragment) :
    ((∃ model, (compile strategy fragments).outcome = .ok model) ↔ WellFormed fragments) ∧
      ∀ model, (compile strategy fragments).outcome = .ok model →
        ∃ listing, model.definitions.Perm listing ∧
          List.Forall₂ (fun declared definition => Declares declared.1 declared.2 definition)
            (declarations fragments) listing :=
  ⟨exists_outcome_compile_iff_wellFormed strategy, fun _ hok => exists_perm_declares hok⟩

/-- Two fragments with a child that is met before its parent. -/
def diskFragments : List Fragment :=
  [{ interface := some "disk"
     errors := [{ name := "Full", description := "no space", inherits := ["base.Io"] }]
     metadata :=
      [{ name := "Full", level := "ERR", entries := [⟨"ERRNO=%d", "int32"⟩] },
        { name := "Full", level := "none" }] },
    { errors := [{ name := "Io" }]
      metadata := [{ name := "Io", level := "Warn" }] }]

def diskModel : Model where
  definitions :=
    [{ name := "Io"
       interface := none
       message := ""
       level := .warning
       parent := none
       fields := [] },
      { name := "Full"
        interface := some "disk"
        message := "no space"
        level := .error
        parent := some "Io"
        fields := [⟨"ERRNO=%d", .int32, .int32⟩] }]

theorem diskFragments_accepted :
    (compile .queue diskFragments).outcome = .ok diskModel ∧
      ∃ listing, diskModel.definitions.Perm listing ∧
        List.Forall₂ (fun declared definition => Declares declared.1 declared.2 definition)
          (declarations diskFragments) listing := by
  have hok : (compile .queue diskFragments).outcome = .ok diskModel := by
    -- The queue sorts its nodes by merging, which the kernel does not compute.
    rw [outcome_compile, ← outcome_compile .multiPass]
    decide +kernel
  exact ⟨hok, (compile_accepts_exactly_wellFormed .queue diskFragments).2 diskModel hok⟩

end ErrorTaxonomy
