import ErrorTaxonomy.Proofs.Acceptance
import ErrorTaxonomy.Proofs.ListingOrder

/-!
# Coherent definitions

Each declaration of an accepted input stands for one definition.  Taken in the
order of encounter these definitions are coherent: names are distinct, so are
the short names within each definition, every parent is among them and none is
its own ancestor.  A compilation succeeds exactly if its declarations stand for
coherent definitions, and its model is then their compiled listing.  Coherence
itself does not depend on any order.
-/

namespace ErrorTaxonomy

open Hierarchy

structure Coherent (definitions : List Definition) : Prop where
  names_distinct : (definitions.map Definition.name).Nodup
  fields_distinct : ∀ definition ∈ definitions, (definition.fields.map Field.shortName).Nodup
  parents_named : ParentsNamed (definitions.map Definition.link)
  acyclic : Acyclic (definitions.map Definition.link)

/-- The definitions that the declarations stand for, in the order of encounter. -/
def DeclareAll (fragments : List Fragment) (definitions : List Definition) : Prop :=
  List.Forall₂ (fun declared definition => Declares declared.1 declared.2 definition)
    (declarations fragments) definitions

theorem Definition.map_fst_link (definitions : List Definition) :
    (definitions.map link).map Prod.fst = definitions.map name := by
  rw [List.map_map]
  rfl

theorem inheritsName_of_perm {entries others : List NamedLink} (hperm : entries.Perm others) :
    InheritsName others = InheritsName entries := by
  funext child parent
  rw [InheritsName, InheritsName, hperm.mem_iff]

theorem Coherent.of_perm {definitions others : List Definition}
    (hcoherent : Coherent definitions) (hperm : definitions.Perm others) :
    Coherent others := by
  have hlinks : InheritsName (others.map Definition.link) =
      InheritsName (definitions.map Definition.link) :=
    inheritsName_of_perm (hperm.map Definition.link)
  constructor
  · rw [← (hperm.map Definition.name).nodup_iff]
    exact hcoherent.names_distinct
  · intro definition hmem
    exact hcoherent.fields_distinct definition (hperm.mem_iff.mpr hmem)
  · intro child parent hparent
    rw [hlinks] at hparent
    rw [← ((hperm.map Definition.link).map Prod.fst).mem_iff]
    exact hcoherent.parents_named child parent hparent
  · rw [Acyclic, hlinks]
    exact hcoherent.acyclic

theorem Coherent.links_distinct {definitions : List Definition}
    (hcoherent : Coherent definitions) :
    ((definitions.map Definition.link).map Prod.fst).Nodup := by
  rw [Definition.map_fst_link]
  exact hcoherent.names_distinct

theorem Coherent.parent_mem {definitions : List Definition}
    (hcoherent : Coherent definitions) {definition : Definition}
    (hmem : definition ∈ definitions) {parent : String}
    (hparent : definition.parent = some parent) :
    parent ∈ definitions.map Definition.name := by
  rw [← Definition.map_fst_link]
  apply hcoherent.parents_named definition.name
  exact List.mem_map.mpr ⟨definition, hmem, Prod.ext rfl hparent⟩

/-- A pending error of which only the names matter. -/
def PendingError.ofLink (entry : NamedLink) : PendingError where
  name := entry.1
  interface := none
  message := ""
  level := .info
  parent := entry.2
  entries := []

theorem PendingError.map_link_ofLink (entries : List NamedLink) :
    (entries.map ofLink).map link = entries := by
  simp [link, ofLink, Function.comp_def]

theorem Coherent.isForest {definitions : List Definition} (hcoherent : Coherent definitions) :
    (named (definitions.map Definition.link)).IsForest := by
  have hlinks := PendingError.map_link_ofLink (definitions.map Definition.link)
  have hnames := hcoherent.links_distinct
  rw [← hlinks, PendingError.map_fst_link] at hnames
  have hforest := InheritanceGraph.isForest_iff_acyclic hnames
  rw [hlinks] at hforest
  exact (hforest hcoherent.parents_named).mpr hcoherent.acyclic

theorem Declares.unique {fragment : Fragment} {declaration : ErrorDeclaration}
    {definition other : Definition} (hdefinition : Declares fragment declaration definition)
    (hother : Declares fragment declaration other) : definition = other := by
  rcases hdefinition.record with ⟨record, hrecord, hlevel, hfields⟩
  rcases hother.record with ⟨record', hrecord', hlevel', hfields'⟩
  rw [← Fragment.record?_eq_some_iff] at hrecord hrecord'
  obtain rfl := Option.some.inj (hrecord.symm.trans hrecord')
  rw [← Level.ofToken?_eq_some_iff] at hlevel hlevel'
  have hlevels : definition.level = other.level :=
    Option.some.inj (hlevel.symm.trans hlevel')
  have hparents : definition.parent = other.parent := by
    apply Option.ext
    intro parent
    rw [hdefinition.parent_iff, hother.parent_iff]
  have hallFields : definition.fields = other.fields :=
    List.right_unique_forall₂' (fun _ _ _ hfield => hfield.unique) hfields hfields'
  cases definition
  cases other
  simp only [Definition.mk.injEq]
  exact ⟨hdefinition.name_eq.trans hother.name_eq.symm,
    hdefinition.interface_eq.trans hother.interface_eq.symm,
    hdefinition.message_eq.trans hother.message_eq.symm, hlevels, hparents, hallFields⟩

variable {strategy : OrderingStrategy} {fragments : List Fragment} {model : Model}
  {definitions : List Definition}

theorem DeclareAll.unique {others : List Definition}
    (hdefinitions : DeclareAll fragments definitions) (hothers : DeclareAll fragments others) :
    definitions = others :=
  List.right_unique_forall₂' (fun _ _ _ hdefinition => hdefinition.unique)
    hdefinitions hothers

theorem DeclareAll.map_link (hdeclared : DeclareAll fragments definitions) :
    definitions.map Definition.link = (encounters fragments).map Encounter.link := by
  rw [encounters_eq, List.map_map]
  refine map_eq_map_of_forall₂ (fun definition declared hdeclares => ?_) hdeclared.flip
  refine Prod.ext hdeclares.name_eq (Option.ext fun parent => ?_)
  exact (hdeclares.parent_iff parent).trans ErrorDeclaration.parent?_eq_some_iff.symm

theorem Encounter.map_fst_link (encounters : List Encounter) :
    (encounters.map link).map Prod.fst = encounters.map name := by
  rw [List.map_map]
  rfl

/-- A compiled model is the listing of the definitions in the order of encounter. -/
theorem exists_coherent_of_compile (hok : (compile strategy fragments).outcome = .ok model) :
    ∃ definitions, DeclareAll fragments definitions ∧ Coherent definitions ∧
      model.definitions = compiledListing Definition.link definitions := by
  obtain ⟨pending, horders, hlisted⟩ := outcome_compile_eq_ok_iff.mp hok
  rcases orders_iff.mp horders with ⟨hnames, hleaves, hparents, hacyclic⟩
  obtain ⟨definitions, hbecomes⟩ :
      ∃ definitions, List.Forall₂ PendingError.Becomes pending definitions := by
    refine exists_forall₂_iff.mpr fun error hmem => ?_
    have hmem := (compiledListing_perm PendingError.link pending).mem_iff.mpr hmem
    rcases exists_mem_right_of_forall₂ hlisted hmem with ⟨definition, -, hdefinition⟩
    exact ⟨definition, hdefinition⟩
  have hdeclared : DeclareAll fragments definitions := by
    have hleaves' := hleaves
    rw [encounters_eq, List.forall₂_map_left_iff] at hleaves'
    exact forall₂_comp hleaves' hbecomes fun _ _ _ => declares_of_leaves
  refine ⟨definitions, hdeclared, ?_, ?_⟩
  · rw [← hdeclared.map_link] at hparents hacyclic
    rw [← Encounter.map_fst_link, ← hdeclared.map_link, Definition.map_fst_link] at hnames
    refine ⟨hnames, fun definition hmem => ?_, hparents, hacyclic⟩
    rcases exists_mem_left_of_forall₂ hbecomes hmem with ⟨error, herror, hdefinition⟩
    rcases exists_mem_left_of_forall₂ hleaves herror with ⟨encounter, -, hencounter⟩
    rcases hencounter.record with ⟨record, -, -, hnodup, hentries⟩
    rw [MetadataEntry.map_shortName_of_becomes hdefinition.fields, hentries]
    exact hnodup
  · have hlinks := PendingError.map_link_of_becomes hbecomes
    exact List.right_unique_forall₂' (fun _ _ _ hdefinition => hdefinition.unique)
      hlisted (forall₂_compiledListing hlinks.symm hbecomes)

theorem coherent_of_compile (hok : (compile strategy fragments).outcome = .ok model) :
    Coherent model.definitions := by
  obtain ⟨definitions, -, hcoherent, hmodel⟩ := exists_coherent_of_compile hok
  rw [hmodel]
  exact hcoherent.of_perm (compiledListing_perm Definition.link definitions).symm

theorem parentsFirst_of_compile (hok : (compile strategy fragments).outcome = .ok model) :
    ParentsFirst (model.definitions.map Definition.link) := by
  obtain ⟨definitions, -, hcoherent, hmodel⟩ := exists_coherent_of_compile hok
  rw [hmodel]
  exact parentsFirst_compiledListing hcoherent.links_distinct hcoherent.parents_named
    hcoherent.isForest

theorem exists_compile_of_coherent (strategy : OrderingStrategy)
    (hdeclared : DeclareAll fragments definitions) (hcoherent : Coherent definitions) :
    ∃ model, (compile strategy fragments).outcome = .ok model := by
  rw [exists_outcome_compile_iff, ← Encounter.map_fst_link, ← hdeclared.map_link,
    Definition.map_fst_link]
  refine ⟨hcoherent.names_distinct, ?_, hcoherent.parents_named, hcoherent.acyclic⟩
  rw [encounters_eq, List.forall_mem_map]
  intro declared hmem
  rcases exists_mem_right_of_forall₂ hdeclared hmem with ⟨definition, hlisted, hdefinition⟩
  rcases hdefinition.record with ⟨record, hrecord, hlevel, hfields⟩
  have hdistinct := hcoherent.fields_distinct definition hlisted
  rw [MetadataEntry.map_shortName_of_becomes hfields] at hdistinct
  refine (sound_and_typed_encounterOf_iff declared).mpr ⟨record, hrecord, ?_⟩
  constructor
  · exact ⟨definition.level, hlevel⟩
  · exact nodup_map_shortName_iff.mp hdistinct
  · intro entry hentry
    rcases exists_mem_right_of_forall₂ hfields hentry with ⟨field, -, hfield⟩
    exact MetadataEntry.typed_iff_becomes.mpr ⟨field, hfield⟩

/-- Coherent definitions compile, in whatever way they are declared. -/
theorem outcome_compile_of_coherent (strategy : OrderingStrategy)
    (hdeclared : DeclareAll fragments definitions) (hcoherent : Coherent definitions) :
    (compile strategy fragments).outcome =
      .ok { definitions := compiledListing Definition.link definitions } := by
  obtain ⟨model, hok⟩ := exists_compile_of_coherent strategy hdeclared hcoherent
  obtain ⟨others, hothers, -, hmodel⟩ := exists_coherent_of_compile hok
  rw [hok, hdeclared.unique hothers, ← hmodel]

end ErrorTaxonomy
