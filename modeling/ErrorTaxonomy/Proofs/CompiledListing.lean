import ErrorTaxonomy.Proofs.FieldTyping
import ErrorTaxonomy.Proofs.ModelLookup
import ErrorTaxonomy.Proofs.StrategyAgreement
import Mathlib.Data.List.Perm.Basic

/-!
# The compiled listing

Whatever carries names and parent names can be listed in compiled order.  The
listing holds everything once and every parent before its children.  A
compilation ends in a model if and only if all stages pass, and the model then
holds the definitions of the listed pending errors, one by one.  Otherwise the
first stage that fails decides, and the last of them fails at the first error of
the listing that has a field without a known type.
-/

namespace ErrorTaxonomy

open Hierarchy

variable {α β : Type}

/-- Items with names and parent names in compiled order. -/
def compiledListing (link : α → NamedLink) (items : List α) : List α :=
  (named (items.map link)).arranged.filterMap fun node => items[node]?

theorem filterMap_getElem?_range_length (items : List α) :
    ((List.range items.length).filterMap fun node => items[node]?) = items := by
  induction items with
  | nil => rfl
  | cons item rest ih =>
      rw [List.length_cons, List.range_succ_eq_map, List.filterMap_cons,
        List.filterMap_map]
      simpa [Function.comp_def] using ih

theorem compiledListing_perm (link : α → NamedLink) (items : List α) :
    (compiledListing link items).Perm items := by
  have hperm := (named (items.map link)).arranged_perm.filterMap fun node => items[node]?
  rwa [size_named, List.length_map, filterMap_getElem?_range_length] at hperm

theorem forall₂_compiledListing {r : α → β → Prop} {link : α → NamedLink}
    {link' : β → NamedLink} {items : List α} {others : List β}
    (hlinks : items.map link = others.map link') (hitems : List.Forall₂ r items others) :
    List.Forall₂ r (compiledListing link items) (compiledListing link' others) := by
  unfold compiledListing
  rw [hlinks]
  induction (named (others.map link')).arranged with
  | nil => exact .nil
  | cons node rest ih =>
      rw [List.filterMap_cons, List.filterMap_cons]
      by_cases hnode : node < items.length
      · have hother : node < others.length := hitems.length_eq ▸ hnode
        rw [List.getElem?_eq_getElem hnode, List.getElem?_eq_getElem hother]
        exact .cons (hitems.get hnode hother) ih
      · have hother : ¬ node < others.length := hitems.length_eq ▸ hnode
        rw [List.getElem?_eq_none (Nat.not_lt.mp hnode),
          List.getElem?_eq_none (Nat.not_lt.mp hother)]
        exact ih

theorem parent_mem_of_compiledListing_eq {link : α → NamedLink} {items : List α}
    (hnames : ((items.map link).map Prod.fst).Nodup)
    (hforest : (named (items.map link)).IsForest) {before after : List α} {item : α}
    (hlisting : compiledListing link items = before ++ item :: after) {parent : String}
    (hparent : (link item).2 = some parent)
    (hknown : parent ∈ (items.map link).map Prod.fst) :
    parent ∈ (before.map link).map Prod.fst := by
  obtain ⟨earlier, later, hnodes, hbefore, hrest⟩ := List.filterMap_eq_append_iff.mp hlisting
  obtain ⟨skipped, node, others, rfl, hskipped, hnode, -⟩ :=
    List.filterMap_eq_cons_iff.mp hrest
  rcases List.mem_iff_getElem?.mp hknown with ⟨parentNode, hparentNode⟩
  have hinherits : (named (items.map link)).Inherits node parentNode := by
    rw [named_inherits_iff hnames]
    refine ⟨(link item).1, parent, ?_, hparentNode⟩
    rw [List.getElem?_map, hnode, ← hparent]
    rfl
  rw [← List.append_assoc] at hnodes
  have hmem := hforest.parent_mem_of_arranged_eq hnodes hinherits
  rw [List.getElem?_map, List.getElem?_map, Option.map_map, Option.map_eq_some_iff]
    at hparentNode
  rcases hparentNode with ⟨parentItem, hitem, hname⟩
  rcases List.mem_append.mp hmem with hearlier | hmem
  · have hlisted : parentItem ∈ before :=
      hbefore ▸ List.mem_filterMap.mpr ⟨parentNode, hearlier, hitem⟩
    rw [List.map_map]
    exact List.mem_map.mpr ⟨parentItem, hlisted, hname⟩
  · rw [hskipped parentNode hmem] at hitem
    contradiction

def Definition.link (definition : Definition) : NamedLink :=
  (definition.name, definition.parent)

namespace PendingError

theorem map_name_of_becomes {pending : List PendingError} {definitions : List Definition}
    (hbecomes : List.Forall₂ Becomes pending definitions) :
    definitions.map Definition.name = pending.map name :=
  map_eq_map_of_forall₂ (fun _ _ hbecomes => hbecomes.name_eq) hbecomes.flip

theorem map_link_of_becomes {pending : List PendingError} {definitions : List Definition}
    (hbecomes : List.Forall₂ Becomes pending definitions) :
    definitions.map Definition.link = pending.map link :=
  map_eq_map_of_forall₂ (fun _ _ hbecomes => Prod.ext hbecomes.name_eq hbecomes.parent_eq)
    hbecomes.flip

theorem nodup_names_compiledListing {pending : List PendingError}
    (hnames : (pending.map name).Nodup) :
    ((compiledListing link pending).map name).Nodup :=
  ((compiledListing_perm link pending).map name).nodup_iff.mpr hnames

end PendingError

/-- Validation leaves the pending errors, and they can be ordered. -/
structure Orders (fragments : List Fragment) (pending : List PendingError) : Prop where
  valid : (validateAll [] (encounters fragments)).outcome = .ok pending
  parents_named : ParentsNamed (pending.map PendingError.link)
  forest : (named (pending.map PendingError.link)).IsForest

variable {strategy : OrderingStrategy} {fragments : List Fragment}
  {pending : List PendingError}

theorem Orders.nodup_names (horders : Orders fragments pending) :
    (pending.map PendingError.name).Nodup :=
  nodup_names_of_validateAll horders.valid

theorem Orders.build_eq (horders : Orders fragments pending) :
    InheritanceGraph.build pending = .ok (InheritanceGraph.linked pending) :=
  (InheritanceGraph.build_eq_ok_iff horders.nodup_names).mpr
    ⟨horders.parents_named, horders.forest, rfl⟩

theorem Orders.outcome_compile_eq (horders : Orders fragments pending) :
    (compile strategy fragments).outcome =
      ((compiledListing PendingError.link pending).mapM PendingError.definition >>=
        fun definitions => .ok (Model.ofDefinitions definitions)) := by
  have hstages := outcome_compile strategy fragments
  rw [horders.valid] at hstages
  change _ = (InheritanceGraph.build pending >>= fun graph => _) at hstages
  rw [horders.build_eq] at hstages
  rw [hstages, compiledListing, ← InheritanceGraph.hierarchy_linked]
  rfl

theorem Orders.outcome_compile_eq_ok_iff (horders : Orders fragments pending)
    {model : Model} :
    (compile strategy fragments).outcome = .ok model ↔
      List.Forall₂ PendingError.Becomes (compiledListing PendingError.link pending)
        model.definitions := by
  have hnames := PendingError.nodup_names_compiledListing horders.nodup_names
  rw [horders.outcome_compile_eq, bind_eq_ok_iff]
  simp only [mapM_eq_ok_iff, PendingError.definition_eq_ok_iff, Except.ok.injEq]
  constructor
  · rintro ⟨definitions, hbecomes, rfl⟩
    rw [← PendingError.map_name_of_becomes hbecomes] at hnames
    rwa [Model.ofDefinitions_eq hnames]
  · intro hbecomes
    rw [← PendingError.map_name_of_becomes hbecomes] at hnames
    exact ⟨model.definitions, hbecomes, Model.ofDefinitions_eq hnames⟩

theorem Orders.outcome_compile_eq_error_iff (horders : Orders fragments pending)
    {error : CompileError} :
    (compile strategy fragments).outcome = .error error ↔
      ∃ before mistyped after,
        compiledListing PendingError.link pending = before ++ mistyped :: after ∧
          (∀ other ∈ before, other.Typed) ∧ mistyped.Mistyped error := by
  rw [horders.outcome_compile_eq, bind_eq_error_iff]
  simp only [reduceCtorEq, and_false, exists_false, or_false, mapM_eq_error_iff,
    PendingError.definition_eq_ok_iff, PendingError.definition_eq_error_iff,
    ← PendingError.typed_iff_becomes]

theorem outcome_compile_eq_ok_iff {model : Model} :
    (compile strategy fragments).outcome = .ok model ↔
      ∃ pending, Orders fragments pending ∧
        List.Forall₂ PendingError.Becomes (compiledListing PendingError.link pending)
          model.definitions := by
  constructor
  · intro hok
    have hstages := hok
    rw [outcome_compile, bind_eq_ok_iff] at hstages
    rcases hstages with ⟨pending, hvalid, hrest⟩
    rcases bind_eq_ok_iff.mp hrest with ⟨graph, hbuild, -⟩
    obtain ⟨hparents, hforest, -⟩ :=
      (InheritanceGraph.build_eq_ok_iff (nodup_names_of_validateAll hvalid)).mp hbuild
    have horders : Orders fragments pending := ⟨hvalid, hparents, hforest⟩
    exact ⟨pending, horders, horders.outcome_compile_eq_ok_iff.mp hok⟩
  · rintro ⟨pending, horders, hbecomes⟩
    exact horders.outcome_compile_eq_ok_iff.mpr hbecomes

theorem outcome_compile_eq_error_iff {error : CompileError} :
    (compile strategy fragments).outcome = .error error ↔
      (validateAll [] (encounters fragments)).outcome = .error error ∨
        (∃ pending, (validateAll [] (encounters fragments)).outcome = .ok pending ∧
          Refuses (pending.map PendingError.link) error) ∨
        ∃ pending, Orders fragments pending ∧ ∃ before mistyped after,
          compiledListing PendingError.link pending = before ++ mistyped :: after ∧
            (∀ other ∈ before, other.Typed) ∧ mistyped.Mistyped error := by
  constructor
  · intro herror
    have hstages := herror
    rw [outcome_compile, bind_eq_error_iff] at hstages
    rcases hstages with hinvalid | ⟨pending, hvalid, hrest⟩
    · exact .inl hinvalid
    · have hnames := nodup_names_of_validateAll hvalid
      rcases bind_eq_error_iff.mp hrest with hbuild | ⟨graph, hbuild, -⟩
      · exact .inr (.inl ⟨pending, hvalid, (InheritanceGraph.build_eq_error_iff hnames).mp hbuild⟩)
      · obtain ⟨hparents, hforest, -⟩ := (InheritanceGraph.build_eq_ok_iff hnames).mp hbuild
        have horders : Orders fragments pending := ⟨hvalid, hparents, hforest⟩
        exact .inr (.inr ⟨pending, horders, horders.outcome_compile_eq_error_iff.mp herror⟩)
  · rintro (hinvalid | ⟨pending, hvalid, hrefuses⟩ | ⟨pending, horders, hmistyped⟩)
    · rw [outcome_compile, hinvalid]
      rfl
    · have hnames := nodup_names_of_validateAll hvalid
      rw [outcome_compile, hvalid]
      change (InheritanceGraph.build pending >>= fun graph => _) = _
      rw [(InheritanceGraph.build_eq_error_iff hnames).mpr hrefuses]
      rfl
    · exact horders.outcome_compile_eq_error_iff.mpr hmistyped

namespace Encounter

def link (encounter : Encounter) : NamedLink :=
  (encounter.name, encounter.declaration.parent?)

/-- Every type token in the record of a declared error is known. -/
def Typed (encounter : Encounter) : Prop :=
  ∀ record, encounter.record? = some record → ∀ entry ∈ record.entries, entry.Typed

theorem Leaves.typed_iff {encounter : Encounter} {pending : PendingError}
    (hleaves : encounter.Leaves pending) : pending.Typed ↔ encounter.Typed := by
  rcases hleaves.record with ⟨record, hrecord, -, -, hentries⟩
  rw [PendingError.Typed, Typed, hentries, hrecord]
  simp

end Encounter

theorem map_link_of_leaves {encounters : List Encounter} {pending : List PendingError}
    (hleaves : List.Forall₂ Encounter.Leaves encounters pending) :
    pending.map PendingError.link = encounters.map Encounter.link :=
  map_eq_map_of_forall₂ (fun _ _ hleaves => Prod.ext hleaves.name_eq hleaves.parent_eq)
    hleaves.flip

theorem forall_typed_iff_of_leaves {encounters : List Encounter}
    {pending : List PendingError}
    (hleaves : List.Forall₂ Encounter.Leaves encounters pending) :
    (∀ error ∈ pending, error.Typed) ↔ ∀ encounter ∈ encounters, encounter.Typed := by
  induction hleaves with
  | nil => simp
  | cons hfirst _ ih => rw [List.forall_mem_cons, List.forall_mem_cons, hfirst.typed_iff, ih]

theorem orders_iff :
    Orders fragments pending ↔
      ((encounters fragments).map Encounter.name).Nodup ∧
        List.Forall₂ Encounter.Leaves (encounters fragments) pending ∧
        ParentsNamed ((encounters fragments).map Encounter.link) ∧
        Acyclic ((encounters fragments).map Encounter.link) := by
  constructor
  · intro horders
    rcases outcome_validateAll_eq_ok_iff.mp horders.valid with ⟨hnames, -, hleaves⟩
    rw [← map_link_of_leaves hleaves]
    exact ⟨hnames, hleaves, horders.parents_named,
      (InheritanceGraph.isForest_iff_acyclic horders.nodup_names horders.parents_named).mp
        horders.forest⟩
  · rintro ⟨hnames, hleaves, hparents, hacyclic⟩
    rw [← map_link_of_leaves hleaves] at hparents hacyclic
    have hvalid : (validateAll [] (encounters fragments)).outcome = .ok pending :=
      outcome_validateAll_eq_ok_iff.mpr ⟨hnames, by simp, hleaves⟩
    exact ⟨hvalid, hparents,
      (InheritanceGraph.isForest_iff_acyclic (nodup_names_of_validateAll hvalid) hparents).mpr
        hacyclic⟩

/-- A compilation succeeds exactly if every declared error passes for itself and
their names can be linked. -/
theorem exists_outcome_compile_iff :
    (∃ model, (compile strategy fragments).outcome = .ok model) ↔
      ((encounters fragments).map Encounter.name).Nodup ∧
        (∀ encounter ∈ encounters fragments, encounter.Sound ∧ encounter.Typed) ∧
        ParentsNamed ((encounters fragments).map Encounter.link) ∧
        Acyclic ((encounters fragments).map Encounter.link) := by
  constructor
  · rintro ⟨model, hok⟩
    rcases outcome_compile_eq_ok_iff.mp hok with ⟨pending, horders, hbecomes⟩
    rcases orders_iff.mp horders with ⟨hnames, hleaves, hlinks⟩
    have hsound : ∀ encounter ∈ encounters fragments, encounter.Sound := by
      simp only [Encounter.sound_iff_leaves]
      exact exists_forall₂_iff.mp ⟨pending, hleaves⟩
    have htyped : ∀ encounter ∈ encounters fragments, encounter.Typed := by
      rw [← forall_typed_iff_of_leaves hleaves]
      intro error hmem
      have hlisted := (compiledListing_perm PendingError.link pending).mem_iff.mpr hmem
      exact PendingError.typed_iff_becomes.mpr
        (exists_forall₂_iff.mp ⟨model.definitions, hbecomes⟩ error hlisted)
    exact ⟨hnames, fun encounter hmem => ⟨hsound encounter hmem, htyped encounter hmem⟩,
      hlinks⟩
  · rintro ⟨hnames, hencounters, hlinks⟩
    obtain ⟨pending, hleaves⟩ :
        ∃ pending, List.Forall₂ Encounter.Leaves (encounters fragments) pending := by
      refine exists_forall₂_iff.mpr fun encounter hmem => ?_
      exact encounter.sound_iff_leaves.mp (hencounters encounter hmem).1
    have horders : Orders fragments pending := orders_iff.mpr ⟨hnames, hleaves, hlinks⟩
    have htyped := (forall_typed_iff_of_leaves hleaves).mpr
      fun encounter hmem => (hencounters encounter hmem).2
    obtain ⟨definitions, hdefinitions⟩ : ∃ definitions, List.Forall₂ PendingError.Becomes
        (compiledListing PendingError.link pending) definitions := by
      refine exists_forall₂_iff.mpr fun error hlisted => ?_
      exact PendingError.typed_iff_becomes.mp
        (htyped error ((compiledListing_perm PendingError.link pending).mem_iff.mp hlisted))
    exact ⟨{ definitions }, horders.outcome_compile_eq_ok_iff.mpr hdefinitions⟩

end ErrorTaxonomy
