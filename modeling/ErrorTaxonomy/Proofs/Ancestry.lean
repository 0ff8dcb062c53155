import ErrorTaxonomy.Proofs.CoherentDefinitions
import Mathlib.Data.List.Nodup

/-!
# Ancestry in a model

Parents are looked up by name, one after the other.  What is above a definition
is determined by it, so a climb that ends meets no definition twice, and there
are no more of them than the model has.  The fuel of the climb therefore gives
out only where no fuel would do, and the ancestors of a name are all there are.
In a model that lists parents first every step up leads to an earlier
definition, so every climb ends; compiled models are of this kind.  What is met
on the way only depends on the lookups: models in which the same names are found
give the same ancestors.
-/

namespace ErrorTaxonomy

namespace Model

/-- Going up from a definition, if there is one, meets exactly the given ones. -/
inductive Climbs (model : Model) : Option Definition → List Definition → Prop
  | done : Climbs model none []
  | step {definition : Definition} {chain : List Definition} :
      Climbs model (model.parentOf? definition) chain →
        Climbs model (some definition) (definition :: chain)

/-- Going up comes to an end from every name. -/
def ChainsEnd (model : Model) : Prop :=
  ∀ name, ∃ chain, model.Climbs (model.parent? name) chain

variable {model other : Model} {start : Option Definition} {chain : List Definition}
  {definition : Definition} {name : String}

theorem mem_of_parentOf? {parent : Definition}
    (hparent : model.parentOf? definition = some parent) : parent ∈ model.definitions := by
  obtain ⟨name, -, hfound⟩ := Option.bind_eq_some_iff.mp hparent
  exact List.mem_of_find?_eq_some hfound

theorem mem_of_parent? {parent : Definition}
    (hparent : model.parent? name = some parent) : parent ∈ model.definitions := by
  obtain ⟨definition, -, hparentOf⟩ := Option.bind_eq_some_iff.mp hparent
  exact mem_of_parentOf? hparentOf

/-! ## Climbs and the fuel they take -/

theorem chain?_none (model : Model) (fuel : Nat) : model.chain? fuel none = some [] := by
  cases fuel <;> rfl

theorem Climbs.chain?_eq (hclimbs : model.Climbs start chain) {fuel : Nat}
    (hfuel : chain.length ≤ fuel) : model.chain? fuel start = some chain := by
  induction hclimbs generalizing fuel with
  | done => exact model.chain?_none fuel
  | step _ ih =>
      rw [List.length_cons] at hfuel
      obtain ⟨fuel, rfl⟩ : ∃ rest, fuel = rest + 1 := Nat.exists_eq_add_of_le' (by omega)
      rw [chain?, ih (by omega)]
      rfl

theorem climbs_of_chain? {fuel : Nat} (hchain : model.chain? fuel start = some chain) :
    model.Climbs start chain := by
  induction fuel generalizing start chain with
  | zero =>
      cases start with
      | none =>
          obtain rfl := Option.some.inj hchain
          exact .done
      | some definition => cases hchain
  | succ fuel ih =>
      cases start with
      | none =>
          obtain rfl := Option.some.inj hchain
          exact .done
      | some definition =>
          obtain ⟨rest, hrest, rfl⟩ := Option.map_eq_some_iff.mp hchain
          exact .step (ih hrest)

theorem Climbs.unique {chain' : List Definition} (hclimbs : model.Climbs start chain)
    (hclimbs' : model.Climbs start chain') : chain = chain' := by
  have hchain := hclimbs.chain?_eq (Nat.le_max_left chain.length chain'.length)
  have hchain' := hclimbs'.chain?_eq (Nat.le_max_right chain.length chain'.length)
  exact Option.some.inj (hchain.symm.trans hchain')

theorem Climbs.mem_definitions
    (hclimbs : model.Climbs start chain)
    (hstart : ∀ first, start = some first → first ∈ model.definitions)
    (hmem : definition ∈ chain) : definition ∈ model.definitions := by
  induction hclimbs with
  | done => simp at hmem
  | step _ ih =>
      rcases List.mem_cons.mp hmem with heq | hrest
      · exact hstart definition (by rw [heq])
      · exact ih (fun _ hparent => mem_of_parentOf? hparent) hrest

/-- From each definition on the way up, the rest of the way is the way up from there. -/
theorem Climbs.exists_rest (hclimbs : model.Climbs start chain) (hmem : definition ∈ chain) :
    ∃ rest, model.Climbs (some definition) (definition :: rest) ∧
      rest.length < chain.length := by
  induction hclimbs with
  | done => simp at hmem
  | @step first chain hrest ih =>
      rcases List.mem_cons.mp hmem with rfl | hlater
      · exact ⟨chain, .step hrest, by simp⟩
      · obtain ⟨rest, hclimbs, hlt⟩ := ih hlater
        exact ⟨rest, hclimbs, by rw [List.length_cons]; omega⟩

theorem Climbs.nodup (hclimbs : model.Climbs start chain) : chain.Nodup := by
  induction hclimbs with
  | done => exact List.nodup_nil
  | @step definition chain hrest ih =>
      apply List.nodup_cons.mpr
      refine ⟨?_, ih⟩
      intro hmem
      -- Met again, the definition would have the same way above it, but a shorter one.
      obtain ⟨rest, hclimbs, hlt⟩ := hrest.exists_rest hmem
      have hsame := hclimbs.unique (.step hrest)
      rw [List.cons.injEq] at hsame
      rw [hsame.2] at hlt
      exact Nat.lt_irrefl _ hlt

theorem Climbs.length_le_size (hclimbs : model.Climbs (model.parent? name) chain) :
    chain.length ≤ model.size := by
  apply hclimbs.nodup.length_le_of_subset
  intro definition hmem
  exact hclimbs.mem_definitions (fun _ hparent => mem_of_parent? hparent) hmem

theorem ancestors?_eq_some_iff :
    model.ancestors? name = some chain ↔ model.Climbs (model.parent? name) chain := by
  constructor
  · exact climbs_of_chain?
  · intro hclimbs
    exact hclimbs.chain?_eq hclimbs.length_le_size

/-- The ancestors of a name are missing only where no fuel is enough to list them. -/
theorem ancestors?_eq_none_iff :
    model.ancestors? name = none ↔
      ∀ fuel, model.chain? fuel (model.parent? name) = none := by
  constructor
  · intro hmissing fuel
    rw [Option.eq_none_iff_forall_ne_some]
    intro chain hchain
    rw [ancestors?_eq_some_iff.mpr (climbs_of_chain? hchain)] at hmissing
    cases hmissing
  · intro hnever
    exact hnever model.size

theorem chainsEnd_iff :
    model.ChainsEnd ↔ ∀ name, ∃ ancestors, model.ancestors? name = some ancestors := by
  simp only [ChainsEnd, ancestors?_eq_some_iff]

theorem exists_inheritedFields? {ancestors : List Definition}
    (hancestors : model.ancestors? name = some ancestors) :
    ∃ fields, model.inheritedFields? name = some fields := by
  unfold inheritedFields?
  cases model.get? name with
  | none => exact ⟨[], rfl⟩
  | some definition => exact ⟨_, by rw [hancestors]; rfl⟩

theorem inheritedFields?_congr (hget : other.get? name = model.get? name)
    (hancestors : other.ancestors? name = model.ancestors? name) :
    other.inheritedFields? name = model.inheritedFields? name := by
  rw [inheritedFields?, inheritedFields?, hget, hancestors]

/-! ## Models that list parents first -/

/-- Where parents are listed first, a step up leads to an earlier definition. -/
theorem exists_earlier_parent (hnames : model.names.Nodup)
    (hfirst : ParentsFirst (model.definitions.map Definition.link))
    {before after : List Definition}
    (hsplit : model.definitions = before ++ definition :: after)
    (hparent : definition.parent = some name) :
    ∃ earlier parent between, before = earlier ++ parent :: between ∧
      model.parentOf? definition = some parent := by
  have hlinks : model.definitions.map Definition.link =
      before.map Definition.link ++ (definition.name, some name) ::
        after.map Definition.link := by
    rw [hsplit, List.map_append, List.map_cons, ← hparent]
    rfl
  have hmem := hfirst _ _ _ _ hlinks
  rw [List.map_map, List.mem_map] at hmem
  obtain ⟨parent, hmem, hname⟩ := hmem
  obtain ⟨earlier, between, hbefore⟩ := List.append_of_mem hmem
  have hfound : model.get? name = some parent := by
    apply (get?_eq_some_iff hnames).mpr
    rw [hsplit]
    exact ⟨List.mem_append_left _ hmem, hname⟩
  refine ⟨earlier, parent, between, hbefore, ?_⟩
  simp [parentOf?, hparent, hfound]

theorem exists_climbs (hnames : model.names.Nodup)
    (hfirst : ParentsFirst (model.definitions.map Definition.link))
    {before after : List Definition}
    (hsplit : model.definitions = before ++ definition :: after) :
    ∃ chain, model.Climbs (some definition) chain := by
  -- By induction on the place in the listing, which every step up makes smaller.
  induction hlength : before.length using Nat.strongRecOn
    generalizing before definition after with
  | ind length ih =>
      subst hlength
      cases hparent : definition.parent with
      | none =>
          have hroot : model.parentOf? definition = none := by
            simp [parentOf?, hparent]
          exact ⟨[definition], .step (hroot ▸ .done)⟩
      | some name =>
          obtain ⟨earlier, parent, between, rfl, hstep⟩ :=
            exists_earlier_parent hnames hfirst hsplit hparent
          have hparentSplit : model.definitions =
              earlier ++ parent :: (between ++ definition :: after) := by
            rw [hsplit, List.append_assoc, List.cons_append]
          obtain ⟨chain, hchain⟩ := ih earlier.length (by simp) hparentSplit rfl
          exact ⟨definition :: chain, .step (hstep ▸ hchain)⟩

theorem chainsEnd_of_parentsFirst (hnames : model.names.Nodup)
    (hfirst : ParentsFirst (model.definitions.map Definition.link)) : model.ChainsEnd := by
  intro name
  cases hparent : model.parent? name with
  | none => exact ⟨[], .done⟩
  | some parent =>
      obtain ⟨before, after, hsplit⟩ := List.append_of_mem (mem_of_parent? hparent)
      exact exists_climbs hnames hfirst hsplit

theorem chain?_congr (hget : ∀ name, other.get? name = model.get? name) (fuel : Nat)
    (start : Option Definition) : other.chain? fuel start = model.chain? fuel start := by
  induction fuel generalizing start with
  | zero => cases start <;> rfl
  | succ fuel ih =>
      cases start with
      | none => rfl
      | some definition => simp [chain?, parentOf?, funext hget, ih]

end Model

theorem chainsEnd_of_compile {strategy : OrderingStrategy} {fragments : List Fragment}
    {model : Model} (hok : (compile strategy fragments).outcome = .ok model) :
    model.ChainsEnd :=
  Model.chainsEnd_of_parentsFirst (coherent_of_compile hok).names_distinct
    (parentsFirst_of_compile hok)

end ErrorTaxonomy
