import ErrorTaxonomy.Proofs.Ancestry
import ErrorTaxonomy.Proofs.IgnoredInput

/-!
# Rearrangement

Fragments may be read in another order, and so may the declarations within each
of them.  The same definitions are declared then, only in another order, and
whether they are coherent does not depend on it.  So a rearranged input compiles
if and only if the input does.  Nor do the queries by name depend on the order in
which a model lists its definitions, as long as their names are distinct.
-/

namespace ErrorTaxonomy

/-- The fragments differ in the order of their declarations only. -/
structure Fragment.Reordered (fragment other : Fragment) : Prop where
  interface_eq : other.interface = fragment.interface
  metadata_eq : other.metadata = fragment.metadata
  errors_perm : fragment.errors.Perm other.errors

theorem Fragment.Reordered.symm {fragment other : Fragment}
    (hreordered : fragment.Reordered other) : other.Reordered fragment where
  interface_eq := hreordered.interface_eq.symm
  metadata_eq := hreordered.metadata_eq.symm
  errors_perm := hreordered.errors_perm.symm

theorem Fragment.Reordered.record?_eq {fragment other : Fragment}
    (hreordered : fragment.Reordered other) (name : String) :
    other.record? name = fragment.record? name := by
  rw [record?, record?, hreordered.metadata_eq]

/-- Fragments are permuted and then the declarations within each of them. -/
def Rearranged (fragments others : List Fragment) : Prop :=
  ∃ permuted, fragments.Perm permuted ∧ List.Forall₂ Fragment.Reordered permuted others

namespace Model

/-- The same hierarchy of definitions, listed in whatever order. -/
structure SameHierarchy (model other : Model) : Prop where
  definitions_perm : model.definitions.Perm other.definitions
  get?_eq : ∀ name, other.get? name = model.get? name
  ancestors_eq : ∀ name, ∃ ancestors,
    model.ancestors? name = some ancestors ∧ other.ancestors? name = some ancestors
  inheritedFields_eq : ∀ name, ∃ fields,
    model.inheritedFields? name = some fields ∧ other.inheritedFields? name = some fields
  children_perm : ∀ name, (model.children name).Perm (other.children name)

theorem sameHierarchy_of_perm {model other : Model} (hnames : model.names.Nodup)
    (hends : model.ChainsEnd) (hperm : model.definitions.Perm other.definitions) :
    model.SameHierarchy other := by
  have hother : other.names.Nodup := (hperm.map Definition.name).nodup_iff.mp hnames
  have hget : ∀ name, other.get? name = model.get? name := by
    intro name
    apply Option.ext
    intro definition
    rw [get?_eq_some_iff hother, get?_eq_some_iff hnames, hperm.mem_iff]
  have hparentOf : other.parentOf? = model.parentOf? := by
    funext definition
    rw [parentOf?, parentOf?, funext hget]
  have hancestors : ∀ name, other.ancestors? name = model.ancestors? name := by
    intro name
    have hparent : other.parent? name = model.parent? name := by
      rw [parent?, parent?, hget, hparentOf]
    rw [ancestors?, ancestors?, hparent, size, size, hperm.length_eq, chain?_congr hget]
  have hlisted := chainsEnd_iff.mp hends
  constructor
  · exact hperm
  · exact hget
  · intro name
    obtain ⟨ancestors, hfound⟩ := hlisted name
    exact ⟨ancestors, hfound, (hancestors name).trans hfound⟩
  · intro name
    obtain ⟨ancestors, hfound⟩ := hlisted name
    obtain ⟨fields, hfields⟩ := exists_inheritedFields? hfound
    exact ⟨fields, hfields,
      (inheritedFields?_congr (hget name) (hancestors name)).trans hfields⟩
  · intro name
    exact hperm.filter _

end Model

theorem SameEssentials.declares {declared other : Fragment × ErrorDeclaration}
    (hsame : SameEssentials declared other) {definition : Definition}
    (hdefinition : Declares declared.1 declared.2 definition) :
    Declares other.1 other.2 definition := by
  obtain ⟨record, hrecord, htyped⟩ := hdefinition.record
  constructor
  · exact hdefinition.name_eq.trans hsame.name_eq.symm
  · exact hdefinition.interface_eq.trans hsame.interface_eq.symm
  · exact hdefinition.message_eq.trans hsame.description_eq.symm
  · intro parent
    exact (hdefinition.parent_iff parent).trans (hsame.parent_iff parent)
  · exact ⟨record, (hsame.record_iff record).mp hrecord, htyped⟩

/-- Declarations move within their fragments, each staying with its records. -/
theorem exists_perm_declarations_of_reordered {fragments others : List Fragment}
    (hreordered : List.Forall₂ Fragment.Reordered fragments others) :
    ∃ listed, (declarations fragments).Perm listed ∧
      List.Forall₂ SameEssentials listed (declarations others) := by
  induction hreordered with
  | nil => exact ⟨[], .nil, .nil⟩
  | @cons fragment other _ _ hfirst _ ih =>
      obtain ⟨listed, hlisted, hsame⟩ := ih
      have hother := forall₂_of_record?_eq fragment other hfirst.interface_eq other.errors
        fun declaration _ => hfirst.record?_eq declaration.name
      exact ⟨_, (hfirst.errors_perm.map _).append hlisted, List.rel_append hother hsame⟩

namespace Rearranged

variable {fragments others : List Fragment} (hrearranged : Rearranged fragments others)

include hrearranged

theorem symm : Rearranged others fragments := by
  obtain ⟨permuted, hperm, hreordered⟩ := hrearranged
  obtain ⟨swapped, hwithin, hswapped⟩ := List.perm_comp_forall₂ hperm hreordered
  exact ⟨swapped, hswapped.symm, hwithin.flip.imp fun _ _ hreordered => hreordered.symm⟩

theorem exists_perm_declarations :
    ∃ listed, (declarations fragments).Perm listed ∧
      List.Forall₂ SameEssentials listed (declarations others) := by
  obtain ⟨permuted, hperm, hreordered⟩ := hrearranged
  obtain ⟨listed, hlisted, hsame⟩ := exists_perm_declarations_of_reordered hreordered
  exact ⟨listed, (hperm.flatMap_right _).trans hlisted, hsame⟩

theorem exists_perm_declareAll {definitions : List Definition}
    (hdeclared : DeclareAll fragments definitions) :
    ∃ definitions', definitions.Perm definitions' ∧ DeclareAll others definitions' := by
  obtain ⟨listed, hlisted, hsame⟩ := hrearranged.exists_perm_declarations
  obtain ⟨definitions', hdefinitions', hperm⟩ :=
    List.perm_comp_forall₂ hlisted.symm hdeclared
  refine ⟨definitions', hperm.symm, ?_⟩
  exact forall₂_comp hsame.flip hdefinitions' fun _ _ _ hshown hdefinition =>
    hshown.declares hdefinition

theorem exists_perm_of_compile {strategy : OrderingStrategy} {model : Model}
    (strategy' : OrderingStrategy) (hok : (compile strategy fragments).outcome = .ok model) :
    ∃ other, (compile strategy' others).outcome = .ok other ∧
      model.definitions.Perm other.definitions := by
  obtain ⟨definitions, hdeclared, hcoherent, hmodel⟩ := exists_coherent_of_compile hok
  obtain ⟨definitions', hperm, hdeclared'⟩ := hrearranged.exists_perm_declareAll hdeclared
  have hother := outcome_compile_of_coherent strategy' hdeclared' (hcoherent.of_perm hperm)
  refine ⟨_, hother, ?_⟩
  have hlisted := compiledListing_perm Definition.link definitions
  have hlisted' := compiledListing_perm Definition.link definitions'
  rw [hmodel]
  exact hlisted.trans (hperm.trans hlisted'.symm)

end Rearranged

/-- A rearranged input compiles if and only if the input does, and both models
hold the same hierarchy. -/
theorem compile_of_rearranged (strategy strategy' : OrderingStrategy)
    (fragments others : List Fragment) (hrearranged : Rearranged fragments others) :
    ((∃ model, (compile strategy fragments).outcome = .ok model) ↔
        ∃ other, (compile strategy' others).outcome = .ok other) ∧
      ∀ model other, (compile strategy fragments).outcome = .ok model →
        (compile strategy' others).outcome = .ok other → model.SameHierarchy other := by
  constructor
  · constructor
    · rintro ⟨model, hok⟩
      obtain ⟨other, hother, -⟩ := hrearranged.exists_perm_of_compile strategy' hok
      exact ⟨other, hother⟩
    · rintro ⟨other, hother⟩
      obtain ⟨model, hok, -⟩ := hrearranged.symm.exists_perm_of_compile strategy hother
      exact ⟨model, hok⟩
  · intro model other hok hother
    obtain ⟨_, hfound, hperm⟩ := hrearranged.exists_perm_of_compile strategy' hok
    obtain rfl := Except.ok.inj (hfound.symm.trans hother)
    exact Model.sameHierarchy_of_perm (coherent_of_compile hok).names_distinct
      (chainsEnd_of_compile hok) hperm

/-- A child of a disk error and a root. -/
def tapeFragment : Fragment where
  errors := [{ name := "Jam", inherits := ["disk.Full"] }, { name := "Torn" }]
  metadata := [{ name := "Torn", level := "alert" }, { name := "Jam", level := "notice" }]

def tapeModel : Model where
  definitions :=
    [Definition.plain "Torn" "" .alert] ++ diskModel.definitions ++
      [{ Definition.plain "Jam" "" .notice with parent := some "Full" }]

theorem tapeFragment_rearranged :
    ∃ other, (compile .queue (tapeFragment :: diskFragments)).outcome = .ok tapeModel ∧
      (compile .multiPass (diskFragments ++
        [{ tapeFragment with errors := tapeFragment.errors.reverse }])).outcome = .ok other ∧
      tapeModel.SameHierarchy other := by
  have hrearranged : Rearranged (tapeFragment :: diskFragments)
      (diskFragments ++ [{ tapeFragment with errors := tapeFragment.errors.reverse }]) := by
    refine ⟨diskFragments ++ [tapeFragment], ?_, ?_⟩
    · exact (List.perm_append_singleton tapeFragment diskFragments).symm
    · apply List.rel_append
      · exact List.forall₂_same.mpr fun _ _ => ⟨rfl, rfl, .refl _⟩
      · exact .cons ⟨rfl, rfl, (List.reverse_perm _).symm⟩ .nil
  have hok : (compile .queue (tapeFragment :: diskFragments)).outcome = .ok tapeModel := by
    rw [outcome_compile, ← outcome_compile .multiPass]
    decide +kernel
  have hcompile := compile_of_rearranged .queue .multiPass _ _ hrearranged
  obtain ⟨other, hother⟩ := hcompile.1.mp ⟨tapeModel, hok⟩
  exact ⟨other, hok, hother, hcompile.2 tapeModel other hok hother⟩

end ErrorTaxonomy
