import ErrorTaxonomy.Proofs.Ancestry
import Mathlib.Data.List.Flatten

/-!
# Conservative extension

Further fragments, put in at any places, may bring new errors between the old
ones and below them, and all numbers of encounter shift.  The old errors still
stand for the same definitions and hold their own parents, so they are listed in
the same order as without the new ones, and each keeps its ancestors and the
fields it inherits.
-/

namespace ErrorTaxonomy

namespace Model

/-- The smaller model is found in the larger one as it is. -/
structure Extends (larger smaller : Model) : Prop where
  restricted :
    larger.definitions.filter (fun definition => definition.name ∈ smaller.names) =
      smaller.definitions
  ancestors_eq : ∀ name ∈ smaller.names, ∃ ancestors,
    smaller.ancestors? name = some ancestors ∧ larger.ancestors? name = some ancestors
  inheritedFields_eq : ∀ name ∈ smaller.names, ∃ fields,
    smaller.inheritedFields? name = some fields ∧ larger.inheritedFields? name = some fields

variable {model larger : Model}

theorem get?_eq_of_restricted (hnames : model.names.Nodup) (hlarger : larger.names.Nodup)
    (hrestricted :
      larger.definitions.filter (fun definition => definition.name ∈ model.names) =
        model.definitions)
    {name : String} (hname : name ∈ model.names) : larger.get? name = model.get? name := by
  apply Option.ext
  intro definition
  rw [get?_eq_some_iff hlarger, get?_eq_some_iff hnames, ← hrestricted, List.mem_filter,
    decide_eq_true_eq]
  constructor
  · rintro ⟨hmem, rfl⟩
    exact ⟨⟨hmem, hname⟩, rfl⟩
  · rintro ⟨⟨hmem, -⟩, heq⟩
    exact ⟨hmem, heq⟩

section Lookups

variable (hcoherent : Coherent model.definitions)
  (hget : ∀ name ∈ model.names, larger.get? name = model.get? name)

include hcoherent hget

theorem parentOf?_eq_of_mem {definition : Definition} (hmem : definition ∈ model.definitions) :
    larger.parentOf? definition = model.parentOf? definition := by
  unfold parentOf?
  cases hparent : definition.parent with
  | none => rfl
  | some parent => exact hget parent (hcoherent.parent_mem hmem hparent)

theorem parent?_eq_of_mem {name : String} (hname : name ∈ model.names) :
    larger.parent? name = model.parent? name := by
  unfold parent?
  rw [hget name hname]
  cases hfound : model.get? name with
  | none => rfl
  | some definition =>
      exact parentOf?_eq_of_mem hcoherent hget (List.mem_of_find?_eq_some hfound)

/-- Whatever is met going up in the one model is met in the other. -/
theorem Climbs.of_get?_eq {start : Option Definition} {chain : List Definition}
    (hstart : ∀ definition, start = some definition → definition ∈ model.definitions)
    (hclimbs : model.Climbs start chain) : larger.Climbs start chain := by
  induction hclimbs with
  | done => exact .done
  | @step definition chain _ ih =>
      have hmem : definition ∈ model.definitions := hstart definition rfl
      apply Climbs.step
      rw [parentOf?_eq_of_mem hcoherent hget hmem]
      apply ih
      intro parent hparent
      exact mem_of_parentOf? hparent

end Lookups

end Model

variable {strategy strategy' : OrderingStrategy} {fragments extended : List Fragment}
  {model larger : Model}

theorem filter_definitions_of_compile (hinserted : fragments.Sublist extended)
    (hok : (compile strategy fragments).outcome = .ok model)
    (hlarger : (compile strategy' extended).outcome = .ok larger) :
    larger.definitions.filter (fun definition => definition.name ∈ model.names) =
      model.definitions := by
  obtain ⟨definitions, hdeclared, hcoherent, hmodel⟩ := exists_coherent_of_compile hok
  obtain ⟨others, hothers, hcoherent', hlargerModel⟩ := exists_coherent_of_compile hlarger
  have hpart : (declarations fragments).Sublist (declarations extended) :=
    hinserted.flatMap _
  obtain ⟨kept, hkept, hdeclared'⟩ := exists_sublist_forall₂ hpart hothers
  obtain rfl : definitions = kept := hdeclared.unique hdeclared'
  have hsame : ∀ definition : Definition, definition.name ∈ model.names ↔
      definition.link.1 ∈ (definitions.map Definition.link).map Prod.fst := by
    intro definition
    have hperm := (compiledListing_perm Definition.link definitions).map Definition.name
    rw [Definition.map_fst_link, Model.names, hmodel, hperm.mem_iff]
    rfl
  have hfilter := filter_compiledListing hkept hcoherent'.links_distinct
    hcoherent.parents_named hcoherent.isForest
  rw [hmodel, ← hfilter, hlargerModel]
  simp only [hsame]

/-- Fragments put in at any places leave what was compiled without them as it
was, in the same relative order, with the same ancestors and inherited fields. -/
theorem extends_of_compile (strategy strategy' : OrderingStrategy)
    (fragments extended : List Fragment) (hinserted : fragments.Sublist extended)
    (model larger : Model) (hok : (compile strategy fragments).outcome = .ok model)
    (hlarger : (compile strategy' extended).outcome = .ok larger) :
    larger.Extends model := by
  have hcoherent := coherent_of_compile hok
  have hcoherent' := coherent_of_compile hlarger
  have hrestricted := filter_definitions_of_compile hinserted hok hlarger
  have hget : ∀ name ∈ model.names, larger.get? name = model.get? name := fun _ =>
    Model.get?_eq_of_restricted hcoherent.names_distinct hcoherent'.names_distinct hrestricted
  have hancestors : ∀ name ∈ model.names, ∃ ancestors,
      model.ancestors? name = some ancestors ∧ larger.ancestors? name = some ancestors := by
    intro name hname
    obtain ⟨ancestors, hclimbs⟩ := chainsEnd_of_compile hok name
    refine ⟨ancestors, Model.ancestors?_eq_some_iff.mpr hclimbs, ?_⟩
    -- The climb of the larger model starts at the same parent and meets the same errors.
    rw [Model.ancestors?_eq_some_iff, Model.parent?_eq_of_mem hcoherent hget hname]
    exact hclimbs.of_get?_eq hcoherent hget fun _ hparent => Model.mem_of_parent? hparent
  refine ⟨hrestricted, hancestors, ?_⟩
  intro name hname
  obtain ⟨ancestors, hsmaller, hlarger⟩ := hancestors name hname
  obtain ⟨fields, hfields⟩ := Model.exists_inheritedFields? hsmaller
  have hsame := Model.inheritedFields?_congr (hget name hname) (hlarger.trans hsmaller.symm)
  exact ⟨fields, hfields, hsame.trans hfields⟩

/-- The disk fragments with a child of theirs put in front and a root between. -/
def quotaFragments : List Fragment :=
  [{ errors := [{ name := "Quota", inherits := ["disk.Full"] }]
     metadata := [{ name := "Quota", level := "notice" }] }] ++ diskFragments.take 1 ++
    [{ interface := some "net"
       errors := [{ name := "Down" }]
       metadata := [{ name := "Down", level := "alert" }] }] ++ diskFragments.drop 1

def quotaModel : Model where
  definitions :=
    [{ Definition.plain "Down" "" .alert with interface := some "net" }] ++
      diskModel.definitions ++ [{ Definition.plain "Quota" "" .notice with parent := some "Full" }]

theorem quotaModel_extends_diskModel :
    diskFragments.Sublist quotaFragments ∧
      (compile .queue diskFragments).outcome = .ok diskModel ∧
      (compile .multiPass quotaFragments).outcome = .ok quotaModel ∧
      quotaModel.Extends diskModel := by
  have hinserted : diskFragments.Sublist quotaFragments := by decide +kernel
  have hok : (compile .queue diskFragments).outcome = .ok diskModel := by
    rw [outcome_compile, ← outcome_compile .multiPass]
    decide +kernel
  have hlarger : (compile .multiPass quotaFragments).outcome = .ok quotaModel := by decide +kernel
  exact ⟨hinserted, hok, hlarger,
    extends_of_compile .queue .multiPass diskFragments quotaFragments hinserted diskModel
      quotaModel hok hlarger⟩

end ErrorTaxonomy
