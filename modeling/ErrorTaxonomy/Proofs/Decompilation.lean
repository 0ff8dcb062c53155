import ErrorTaxonomy.Proofs.CoherentDefinitions

/-!
# Decompilation

A model can be written as fragments again, one for each definition, in the order
of the model.  Levels and types have a token of their own that reads back, and
the bare name of a parent is its own last component, so each fragment declares
the definition it was written from.  A compiled model lists parents first, hence
the compiled order is the order of these fragments and the model comes back as
it was.
-/

namespace ErrorTaxonomy

def Field.asEntry (field : Field) : MetadataEntry where
  format := field.format
  typeToken := field.abstractType.token

namespace Definition

def asDeclaration (definition : Definition) : ErrorDeclaration where
  name := definition.name
  description := definition.message
  inherits := definition.parent.toList

def asRecord (definition : Definition) : MetadataRecord where
  name := definition.name
  level := definition.level.token
  entries := definition.fields.map Field.asEntry

/-- A fragment of this definition alone. -/
def asFragment (definition : Definition) : Fragment where
  interface := definition.interface
  errors := [definition.asDeclaration]
  metadata := [definition.asRecord]

/-- What a declaration can express: a parent is a bare name, and the native type
of a field follows from its abstract one. -/
structure Expressible (definition : Definition) : Prop where
  parent_bare : ∀ parent, definition.parent = some parent → '.' ∉ parent.toList
  fields_resolved : ∀ field ∈ definition.fields,
    field.resolvedType = field.abstractType.native

variable {definition : Definition}

theorem Expressible.namesParent_iff (hexpressible : definition.Expressible) (parent : String) :
    definition.asDeclaration.NamesParent parent ↔ definition.parent = some parent := by
  rw [← ErrorDeclaration.parent?_eq_some_iff, ErrorDeclaration.parent?, asDeclaration]
  cases hparent : definition.parent with
  | none => simp
  | some name =>
      have hbare : '.' ∉ name.toList := hexpressible.parent_bare name hparent
      have hself : lastComponent name = name := lastComponent_eq_iff.mpr ⟨hbare, .inl rfl⟩
      simp [hself]

theorem firstRecord_asFragment (definition : Definition) :
    definition.asFragment.FirstRecord definition.asDeclaration.name definition.asRecord :=
  ⟨[], [], rfl, rfl, by simp⟩

theorem Expressible.declares_asFragment (hexpressible : definition.Expressible) :
    Declares definition.asFragment definition.asDeclaration definition := by
  have hlevel : Level.asciiLower definition.asRecord.level ∈ definition.level.spellings :=
    Level.ofToken?_eq_some_iff.mp (Level.ofToken?_token definition.level)
  have hfields : List.Forall₂ MetadataEntry.Becomes definition.asRecord.entries
      definition.fields := by
    rw [asRecord, List.forall₂_map_left_iff, List.forall₂_same]
    intro field hmem
    exact ⟨rfl, rfl, hexpressible.fields_resolved field hmem⟩
  constructor
  · rfl
  · rfl
  · rfl
  · exact fun parent => (hexpressible.namesParent_iff parent).symm
  · exact ⟨definition.asRecord, definition.firstRecord_asFragment, hlevel, hfields⟩

end Definition

theorem Declares.expressible {fragment : Fragment} {declaration : ErrorDeclaration}
    {definition : Definition} (hdefinition : Declares fragment declaration definition) :
    definition.Expressible := by
  obtain ⟨record, -, -, hfields⟩ := hdefinition.record
  constructor
  · intro parent hparent
    obtain ⟨qualified, others, -, hlast⟩ := (hdefinition.parent_iff parent).mp hparent
    exact hlast.1
  · intro field hmem
    obtain ⟨entry, -, hfield⟩ := exists_mem_left_of_forall₂ hfields hmem
    exact hfield.resolved_eq

theorem expressible_of_compile {strategy : OrderingStrategy} {fragments : List Fragment}
    {model : Model} (hok : (compile strategy fragments).outcome = .ok model) :
    ∀ definition ∈ model.definitions, definition.Expressible := by
  obtain ⟨definitions, hdeclared, -, hmodel⟩ := exists_coherent_of_compile hok
  intro definition hmem
  rw [hmodel, (compiledListing_perm Definition.link definitions).mem_iff] at hmem
  obtain ⟨declared, -, hdefinition⟩ := exists_mem_left_of_forall₂ hdeclared hmem
  exact hdefinition.expressible

/-- One fragment for each definition, in the order of the model. -/
def Model.fragments (model : Model) : List Fragment :=
  model.definitions.map Definition.asFragment

theorem Model.declarations_fragments (model : Model) :
    declarations model.fragments = model.definitions.map fun definition =>
      (definition.asFragment, definition.asDeclaration) := by
  rw [declarations, fragments, List.flatMap_map]
  exact List.flatMap_pure_eq_map _ _

theorem Model.declareAll_fragments {model : Model}
    (hexpressible : ∀ definition ∈ model.definitions, definition.Expressible) :
    DeclareAll model.fragments model.definitions := by
  rw [DeclareAll, declarations_fragments, List.forall₂_map_left_iff, List.forall₂_same]
  intro definition hmem
  exact (hexpressible definition hmem).declares_asFragment

/-- A compiled model, written as fragments and compiled again, is the same. -/
theorem compile_fragments_of_compile (strategy strategy' : OrderingStrategy)
    (fragments : List Fragment) (model : Model)
    (hok : (compile strategy fragments).outcome = .ok model) :
    (compile strategy' model.fragments).outcome = .ok model := by
  have hcoherent := coherent_of_compile hok
  have hdeclared := Model.declareAll_fragments (expressible_of_compile hok)
  have hlisting : compiledListing Definition.link model.definitions = model.definitions :=
    (parentsFirst_of_compile hok).compiledListing_eq hcoherent.links_distinct
  rw [outcome_compile_of_coherent strategy' hdeclared hcoherent, hlisting]

theorem compile_diskModel_fragments :
    (compile .multiPass diskFragments).outcome = .ok diskModel ∧
      (compile .queue diskModel.fragments).outcome = .ok diskModel := by
  have hok : (compile .multiPass diskFragments).outcome = .ok diskModel := by decide +kernel
  exact ⟨hok, compile_fragments_of_compile .multiPass .queue diskFragments diskModel hok⟩

end ErrorTaxonomy
