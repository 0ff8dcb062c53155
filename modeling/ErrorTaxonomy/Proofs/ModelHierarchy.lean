import ErrorTaxonomy.Proofs.ConservativeExtension
import ErrorTaxonomy.Proofs.ModelOrder

/-!
# The hierarchy of a model

Parents, ancestors and children are three ways to read the parent names of a model.
Where names are distinct and parents are listed first they read one and the same
finite forest.  A step up leads to an earlier position, so the ancestors of a name
are met in descending order of position and none twice.  A step down leads to just
those definitions from which a step up leads back, so the ancestors of a name are
those from which it is reached by steps down.
-/

namespace ErrorTaxonomy

namespace Model

variable {model : Model} {name : String} {definition parent : Definition}

def StepsDown (model : Model) (name child : String) : Prop :=
  child ∈ (model.children name).map Definition.name

/-- The queries of a model about its hierarchy agree on one finite forest, in which the
given definitions are above each name. -/
structure DescribesForest (model : Model) (ancestors : String → List Definition) : Prop where
  ancestors_eq : ∀ name, model.ancestors? name = some (ancestors name)
  climbs : ∀ name, model.Climbs (model.parent? name) (ancestors name)
  parent_iff : ∀ definition ∈ model.definitions, ∀ name,
    definition.parent = some name ↔
      ∃ parent, model.parent? definition.name = some parent ∧ parent.name = name
  ancestors_of_root : ∀ name, model.parent? name = none → ancestors name = []
  ancestors_of_parent : ∀ name parent, model.parent? name = some parent →
    ancestors name = parent :: ancestors parent.name
  last_root : ∀ name last, (ancestors name).getLast? = some last → last.parent = none
  positions_descend : ∀ name ∈ model.names, ∃ position positions,
    model.position? name = some position ∧
      (ancestors name).map (fun ancestor => model.position? ancestor.name) =
        positions.map some ∧ (position :: positions).Pairwise (· > ·)
  ancestors_distinct : ∀ name ∈ model.names,
    (name :: (ancestors name).map Definition.name).Nodup
  length_ancestors_le : ∀ name position, model.position? name = some position →
    (ancestors name).length ≤ position
  stepsDown_iff : ∀ name child, model.StepsDown name child ↔
    ∃ parent, model.parent? child = some parent ∧ parent.name = name
  children_listed : ∀ name, (model.children name).Sublist model.definitions ∧
    ((model.children name).map Definition.name).Nodup
  mem_ancestors_iff : ∀ name ancestor,
    ancestor ∈ (ancestors name).map Definition.name ↔
      Relation.TransGen model.StepsDown ancestor name
  unknown : ∀ name, name ∉ model.names →
    model.parent? name = none ∧ ancestors name = [] ∧
      model.inheritedFields? name = some [] ∧ model.children name = []

theorem Climbs.parentOf?_getLast {start : Option Definition} {chain : List Definition}
    (hclimbs : model.Climbs start chain) {last : Definition}
    (hlast : chain.getLast? = some last) : model.parentOf? last = none := by
  induction hclimbs with
  | done => simp at hlast
  | @step definition chain hrest ih =>
      cases chain with
      | nil =>
          have heq : definition = last := by simpa using hlast
          cases hrest' : model.parentOf? definition with
          | none => rw [← heq, hrest']
          | some parent =>
              rw [hrest'] at hrest
              cases hrest
      | cons next chain => exact ih (by simpa using hlast)

section Distinct

variable (hnames : model.names.Nodup)

include hnames

theorem get?_name (hmem : definition ∈ model.definitions) :
    model.get? definition.name = some definition :=
  (get?_eq_some_iff hnames).mpr ⟨hmem, rfl⟩

theorem parent?_name (hmem : definition ∈ model.definitions) :
    model.parent? definition.name = model.parentOf? definition := by
  rw [parent?, get?_name hnames hmem]
  rfl

theorem parentOf?_eq_some_iff :
    model.parentOf? definition = some parent ↔
      parent ∈ model.definitions ∧ definition.parent = some parent.name := by
  rw [parentOf?, Option.bind_eq_some_iff]
  simp only [get?_eq_some_iff hnames]
  constructor
  · intro hfound
    rcases hfound with ⟨name, hparent, hmem, hname⟩
    exact ⟨hmem, by rw [hparent, hname]⟩
  · intro hparent
    exact ⟨parent.name, hparent.2, hparent.1, rfl⟩

theorem nodup_children (name : String) : ((model.children name).map Definition.name).Nodup :=
  hnames.sublist (List.filter_sublist.map Definition.name)

end Distinct

section ParentsFirst

variable (hnames : model.names.Nodup)
  (hfirst : ParentsFirst (model.definitions.map Definition.link))

include hnames hfirst

theorem exists_parentOf? (hmem : definition ∈ model.definitions)
    (hparent : definition.parent = some name) :
    ∃ parent, model.parentOf? definition = some parent ∧ parent.name = name := by
  rcases List.append_of_mem hmem with ⟨before, after, hsplit⟩
  rcases exists_earlier_parent hnames hfirst hsplit hparent with
    ⟨earlier, parent, between, -, hstep⟩
  have hname := ((parentOf?_eq_some_iff hnames).mp hstep).2
  rw [hparent, Option.some.injEq] at hname
  exact ⟨parent, hstep, hname.symm⟩

/-- A step up leads to an earlier position. -/
theorem position?_lt_of_parent? (hparent : model.parent? name = some parent) {later : Nat}
    (hlater : model.position? name = some later) :
    ∃ earlier < later, model.position? parent.name = some earlier := by
  rcases Option.bind_eq_some_iff.mp hparent with ⟨definition, hfound, hstep⟩
  rcases (get?_eq_some_iff hnames).mp hfound with ⟨hmem, hname⟩
  rcases List.append_of_mem hmem with ⟨before, after, hsplit⟩
  have hparentName := ((parentOf?_eq_some_iff hnames).mp hstep).2
  have hlisted : parent.name ∈ before.map Definition.name := by
    rcases exists_earlier_parent hnames hfirst hsplit hparentName with
      ⟨earlier, other, between, hbefore, hother⟩
    rw [hstep, Option.some.injEq] at hother
    simp [hbefore, hother]
  rcases position?_lt_of_mem hnames hsplit hlisted with
    ⟨other, earlier, later', -, hearlier, hlater', hlt⟩
  rw [hname, hlater, Option.some.injEq] at hlater'
  exact ⟨earlier, hlater' ▸ hlt, hearlier⟩

theorem parent_eq_some_iff (hmem : definition ∈ model.definitions) :
    definition.parent = some name ↔
      ∃ parent, model.parent? definition.name = some parent ∧ parent.name = name := by
  rw [parent?_name hnames hmem]
  constructor
  · exact exists_parentOf? hnames hfirst hmem
  · intro hparent
    rcases hparent with ⟨parent, hstep, hname⟩
    rw [← hname]
    exact ((parentOf?_eq_some_iff hnames).mp hstep).2

theorem stepsDown_iff {child : String} :
    model.StepsDown name child ↔
      ∃ parent, model.parent? child = some parent ∧ parent.name = name := by
  constructor
  · intro hchild
    rcases List.mem_map.mp hchild with ⟨definition, hlisted, rfl⟩
    rw [children, List.mem_filter, decide_eq_true_eq] at hlisted
    exact (parent_eq_some_iff hnames hfirst hlisted.1).mp hlisted.2
  · intro hparent
    rcases hparent with ⟨parent, hparent, hname⟩
    rcases Option.bind_eq_some_iff.mp hparent with ⟨definition, hfound, hstep⟩
    rcases (get?_eq_some_iff hnames).mp hfound with ⟨hmem, hchild⟩
    have hparentName := ((parentOf?_eq_some_iff hnames).mp hstep).2
    apply List.mem_map.mpr
    refine ⟨definition, ?_, hchild⟩
    rw [children, List.mem_filter, decide_eq_true_eq, ← hname]
    exact ⟨hmem, hparentName⟩

theorem Climbs.transGen_stepsDown {start : Option Definition} {chain : List Definition}
    (hclimbs : model.Climbs start chain) (hstart : model.parent? name = start)
    (hmem : definition ∈ chain) :
    Relation.TransGen model.StepsDown definition.name name := by
  induction hclimbs generalizing name with
  | done => simp at hmem
  | @step parent chain _ ih =>
      have hdown : model.StepsDown parent.name name :=
        (stepsDown_iff hnames hfirst).mpr ⟨parent, hstart, rfl⟩
      rcases List.mem_cons.mp hmem with heq | hrest
      · rw [heq]
        exact .single hdown
      · have hparent := parent?_name hnames (mem_of_parent? hstart)
        exact .tail (ih hparent hrest) hdown

/-! ### The ancestors of every name -/

section Ancestors

variable {ancestors : String → List Definition}
  (hclimbs : ∀ name, model.Climbs (model.parent? name) (ancestors name))

include hclimbs

omit hnames hfirst in
theorem ancestors_of_root (hroot : model.parent? name = none) : ancestors name = [] := by
  have hclimb := hclimbs name
  rw [hroot] at hclimb
  exact hclimb.unique .done

omit hfirst in
theorem ancestors_of_parent (hparent : model.parent? name = some parent) :
    ancestors name = parent :: ancestors parent.name := by
  have hclimb := hclimbs name
  have hrest := hclimbs parent.name
  rw [parent?_name hnames (mem_of_parent? hparent)] at hrest
  rw [hparent] at hclimb
  exact hclimb.unique (.step hrest)

theorem parent_of_getLast? {last : Definition}
    (hlast : (ancestors name).getLast? = some last) : last.parent = none := by
  have hmem : last ∈ model.definitions :=
    (hclimbs name).mem_definitions (fun _ hparent => mem_of_parent? hparent)
      (List.mem_of_getLast? hlast)
  have hroot := (hclimbs name).parentOf?_getLast hlast
  cases hparent : last.parent with
  | none => rfl
  | some parentName =>
      rcases exists_parentOf? hnames hfirst hmem hparent with ⟨parent, hstep, -⟩
      rw [hroot] at hstep
      contradiction

theorem exists_positions {position : Nat} (hposition : model.position? name = some position) :
    ∃ positions, (ancestors name).map (fun ancestor => model.position? ancestor.name) =
      positions.map some ∧ (position :: positions).Pairwise (· > ·) := by
  -- By induction on the position, which a step up makes smaller.
  induction position using Nat.strongRecOn generalizing name with
  | ind position ih =>
      cases hparent : model.parent? name with
      | none => exact ⟨[], by simp [ancestors_of_root hclimbs hparent], List.pairwise_singleton _ _⟩
      | some parent =>
          rcases position?_lt_of_parent? hnames hfirst hparent hposition with
            ⟨earlier, hlt, hearlier⟩
          rcases ih earlier hlt hearlier with ⟨positions, heq, hdescend⟩
          refine ⟨earlier :: positions, ?_, ?_⟩
          · rw [ancestors_of_parent hnames hclimbs hparent, List.map_cons, List.map_cons, heq,
              hearlier]
          · apply List.pairwise_cons.mpr
            refine ⟨?_, hdescend⟩
            intro other hother
            rcases List.mem_cons.mp hother with hsame | hrest
            · omega
            · have hbelow := List.rel_of_pairwise_cons hdescend hrest
              omega

theorem exists_positions_of_mem (hname : name ∈ model.names) :
    ∃ position positions, model.position? name = some position ∧
      (ancestors name).map (fun ancestor => model.position? ancestor.name) =
        positions.map some ∧ (position :: positions).Pairwise (· > ·) := by
  rcases List.mem_iff_getElem?.mp hname with ⟨position, hat⟩
  have hposition := (position?_eq_some_iff hnames).mpr hat
  rcases exists_positions hnames hfirst hclimbs hposition with ⟨positions, hpositions⟩
  exact ⟨position, positions, hposition, hpositions⟩

theorem nodup_ancestors (hname : name ∈ model.names) :
    (name :: (ancestors name).map Definition.name).Nodup := by
  rcases exists_positions_of_mem hnames hfirst hclimbs hname with
    ⟨position, positions, hposition, heq, hdescend⟩
  have hpositions : ((position :: positions).map some).Nodup := by
    apply List.Nodup.map (Option.some_injective Nat)
    exact hdescend.imp fun hgt => Nat.ne_of_gt hgt
  apply List.Nodup.of_map model.position?
  rw [List.map_cons, hposition, List.map_map]
  rwa [List.map_cons, ← heq] at hpositions

theorem length_ancestors_le {position : Nat} (hposition : model.position? name = some position) :
    (ancestors name).length ≤ position := by
  rcases exists_positions hnames hfirst hclimbs hposition with ⟨positions, heq, hdescend⟩
  have hlength : (ancestors name).length = positions.length := by
    have hlengths := congrArg List.length heq
    rwa [List.length_map, List.length_map] at hlengths
  rw [List.pairwise_cons] at hdescend
  have hnodup : positions.Nodup := hdescend.2.imp fun hgt => Nat.ne_of_gt hgt
  have hsubset : positions ⊆ List.range position := fun other hother =>
    List.mem_range.mpr (hdescend.1 other hother)
  have hbound := hnodup.length_le_of_subset hsubset
  rw [List.length_range] at hbound
  omega

theorem mem_ancestors_iff {ancestor : String} :
    ancestor ∈ (ancestors name).map Definition.name ↔
      Relation.TransGen model.StepsDown ancestor name := by
  constructor
  · intro hlisted
    rcases List.mem_map.mp hlisted with ⟨definition, hmem, rfl⟩
    exact (hclimbs name).transGen_stepsDown hnames hfirst rfl hmem
  · intro hreached
    induction hreached with
    | single hdown =>
        rcases (stepsDown_iff hnames hfirst).mp hdown with ⟨parent, hparent, rfl⟩
        rw [ancestors_of_parent hnames hclimbs hparent]
        simp
    | tail _ hdown ih =>
        rcases (stepsDown_iff hnames hfirst).mp hdown with ⟨parent, hparent, rfl⟩
        rw [ancestors_of_parent hnames hclimbs hparent, List.map_cons]
        exact List.mem_cons_of_mem _ ih

theorem queries_of_unknown (hname : name ∉ model.names) :
    model.parent? name = none ∧ ancestors name = [] ∧
      model.inheritedFields? name = some [] ∧ model.children name = [] := by
  have hget : model.get? name = none := get?_eq_none_iff.mpr hname
  have hparent : model.parent? name = none := by
    rw [parent?, hget]
    rfl
  refine ⟨hparent, ancestors_of_root hclimbs hparent, ?_, ?_⟩
  · rw [inheritedFields?, hget]
  · apply List.filter_eq_nil_iff.mpr
    intro definition hmem hchild
    rw [decide_eq_true_eq] at hchild
    rcases exists_parentOf? hnames hfirst hmem hchild with ⟨parent, hstep, hnamed⟩
    apply hname
    rw [← hnamed]
    exact List.mem_map_of_mem (mem_of_parentOf? hstep)

theorem describesForest : model.DescribesForest ancestors where
  ancestors_eq := fun name => ancestors?_eq_some_iff.mpr (hclimbs name)
  climbs := hclimbs
  parent_iff := fun _ hmem _ => parent_eq_some_iff hnames hfirst hmem
  ancestors_of_root := fun _ hroot => ancestors_of_root hclimbs hroot
  ancestors_of_parent := fun _ _ hparent => ancestors_of_parent hnames hclimbs hparent
  last_root := fun _ _ hlast => parent_of_getLast? hnames hfirst hclimbs hlast
  positions_descend := fun _ hname => exists_positions_of_mem hnames hfirst hclimbs hname
  ancestors_distinct := fun _ hname => nodup_ancestors hnames hfirst hclimbs hname
  length_ancestors_le := fun _ _ hposition =>
    length_ancestors_le hnames hfirst hclimbs hposition
  stepsDown_iff := fun _ _ => stepsDown_iff hnames hfirst
  children_listed := fun name => ⟨List.filter_sublist, nodup_children hnames name⟩
  mem_ancestors_iff := fun _ _ => mem_ancestors_iff hnames hfirst hclimbs
  unknown := fun _ hname => queries_of_unknown hnames hfirst hclimbs hname

end Ancestors

end ParentsFirst

end Model

/-- The queries of a compiled model describe one finite forest. -/
theorem describesForest_of_compile (strategy : OrderingStrategy) (fragments : List Fragment)
    (model : Model) (hok : (compile strategy fragments).outcome = .ok model) :
    ∃ ancestors, model.DescribesForest ancestors := by
  obtain ⟨ancestors, hclimbs⟩ := Classical.axiomOfChoice (chainsEnd_of_compile hok)
  exact ⟨ancestors, Model.describesForest (coherent_of_compile hok).names_distinct
    (parentsFirst_of_compile hok) hclimbs⟩

theorem quotaModel_describesForest :
    (compile .multiPass quotaFragments).outcome = .ok quotaModel ∧
      ∃ ancestors, quotaModel.DescribesForest ancestors := by
  have hok : (compile .multiPass quotaFragments).outcome = .ok quotaModel := by decide +kernel
  exact ⟨hok, describesForest_of_compile .multiPass quotaFragments quotaModel hok⟩

end ErrorTaxonomy
