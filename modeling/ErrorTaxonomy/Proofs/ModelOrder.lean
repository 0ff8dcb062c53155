import ErrorTaxonomy.Proofs.Acceptance

/-!
# The order of a model

A model lists every declared error once.  Its names are distinct, so that each
finds its definition and its position, and every parent is listed before its
children.
-/

namespace ErrorTaxonomy

open Hierarchy

/-- The model lists the declared errors, parents first, and finds each by name. -/
structure Model.Lists (model : Model) (fragments : List Fragment) : Prop where
  names_perm : model.names.Perm (declaredNames fragments)
  size_eq : model.size = (fragments.flatMap Fragment.errors).length
  names_distinct : model.names.Nodup
  found : ∀ position definition, model.definitions[position]? = some definition →
    model.position? definition.name = some position ∧
      model.get? definition.name = some definition
  parents_first : ∀ definition ∈ model.definitions, ∀ parent,
    definition.parent = some parent →
      ∃ parentDefinition earlier later, model.get? parent = some parentDefinition ∧
        model.position? parent = some earlier ∧
        model.position? definition.name = some later ∧ earlier < later

theorem map_snd_declarations (fragments : List Fragment) :
    (declarations fragments).map Prod.snd = fragments.flatMap Fragment.errors := by
  rw [declarations, List.map_flatMap]
  simp [Function.comp_def]

namespace Model

variable {model : Model}

theorem found_of_getElem? (hnames : model.names.Nodup) {position : Nat}
    {definition : Definition} (hdefinition : model.definitions[position]? = some definition) :
    model.position? definition.name = some position ∧
      model.get? definition.name = some definition := by
  constructor
  · rw [position?_eq_some_iff hnames, names, List.getElem?_map, hdefinition]
    rfl
  · exact (get?_eq_some_iff hnames).mpr ⟨List.mem_of_getElem? hdefinition, rfl⟩

theorem position?_lt_of_mem (hnames : model.names.Nodup) {before after : List Definition}
    {definition : Definition} (hsplit : model.definitions = before ++ definition :: after)
    {name : String} (hname : name ∈ before.map Definition.name) :
    ∃ other earlier later, model.get? name = some other ∧
      model.position? name = some earlier ∧
      model.position? definition.name = some later ∧ earlier < later := by
  rcases List.mem_map.mp hname with ⟨other, hmem, rfl⟩
  rcases List.mem_iff_getElem?.mp hmem with ⟨earlier, hearlier⟩
  have hlt : earlier < before.length := (List.getElem?_eq_some_iff.mp hearlier).1
  have hother : model.definitions[earlier]? = some other := by
    rw [hsplit, List.getElem?_append_left hlt, hearlier]
  have hdefinition : model.definitions[before.length]? = some definition := by
    rw [hsplit, List.getElem?_append_right (Nat.le_refl _), Nat.sub_self]
    rfl
  have hfound := found_of_getElem? hnames hother
  exact ⟨other, earlier, before.length, hfound.2, hfound.1,
    (found_of_getElem? hnames hdefinition).1, hlt⟩

end Model

variable {strategy : OrderingStrategy} {fragments : List Fragment} {model : Model}

theorem names_perm_of_compile (hok : (compile strategy fragments).outcome = .ok model) :
    model.names.Perm (declaredNames fragments) := by
  rcases outcome_compile_eq_ok_iff.mp hok with ⟨pending, horders, hbecomes⟩
  rcases orders_iff.mp horders with ⟨-, hleaves, -⟩
  have hperm := (compiledListing_perm PendingError.link pending).map PendingError.name
  rwa [← PendingError.map_name_of_becomes hbecomes, map_name_of_leaves hleaves,
    map_name_encounters] at hperm

theorem parent_mem_of_compile (hok : (compile strategy fragments).outcome = .ok model)
    {before after : List Definition} {definition : Definition}
    (hsplit : model.definitions = before ++ definition :: after) {parent : String}
    (hparent : definition.parent = some parent) : parent ∈ before.map Definition.name := by
  rcases outcome_compile_eq_ok_iff.mp hok with ⟨pending, horders, hbecomes⟩
  have hlinks := PendingError.map_link_of_becomes hbecomes
  rw [hsplit, List.map_append, List.map_cons] at hlinks
  obtain ⟨earlier, rest, hlisting, hearlier, hrest⟩ := List.map_eq_append_iff.mp hlinks.symm
  rcases List.map_eq_cons_iff.mp hrest with ⟨item, later, rfl, hitem, -⟩
  have hitemParent : (PendingError.link item).2 = some parent := by
    rw [hitem, Definition.link, hparent]
  have hmem : item ∈ pending := by
    rw [← (compiledListing_perm PendingError.link pending).mem_iff, hlisting]
    exact List.mem_append_right _ List.mem_cons_self
  have hinherits : InheritsName (pending.map PendingError.link) item.name parent :=
    List.mem_map.mpr ⟨item, hmem, Prod.ext rfl hitemParent⟩
  have hknown := horders.parents_named item.name parent hinherits
  have hnames := horders.nodup_names
  rw [← PendingError.map_fst_link] at hnames
  have hbefore := parent_mem_of_compiledListing_eq hnames horders.forest hlisting
    hitemParent hknown
  rw [hearlier, List.map_map] at hbefore
  exact hbefore

/-- A compiled model lists the declared errors, parents first. -/
theorem lists_of_compile (strategy : OrderingStrategy) (fragments : List Fragment)
    (model : Model) (hok : (compile strategy fragments).outcome = .ok model) :
    model.Lists fragments := by
  have hperm := names_perm_of_compile hok
  have hnames : model.names.Nodup := by
    rw [hperm.nodup_iff, ← map_name_encounters]
    exact (exists_outcome_compile_iff.mp ⟨model, hok⟩).1
  refine ⟨hperm, ?_, hnames, fun _ _ => Model.found_of_getElem? hnames, ?_⟩
  · have hlength := hperm.length_eq
    rwa [declaredNames, List.length_map, ← List.length_map Prod.snd, map_snd_declarations,
      Model.names, List.length_map] at hlength
  · intro definition hmem parent hparent
    rcases List.append_of_mem hmem with ⟨before, after, hsplit⟩
    exact Model.position?_lt_of_mem hnames hsplit (parent_mem_of_compile hok hsplit hparent)

theorem diskModel_lists : diskModel.Lists diskFragments :=
  lists_of_compile .multiPass diskFragments diskModel (by decide +kernel)

end ErrorTaxonomy
