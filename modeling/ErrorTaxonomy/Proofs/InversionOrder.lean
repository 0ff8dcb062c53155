import ErrorTaxonomy.Proofs.StrategyAgreement

/-!
# The compiled order in closed form

Whatever list of pending errors has a graph, its graph is the forest that the
parent names describe, so the order never fails and is the same for both
strategies: all errors sorted by the inversions on their chains, and by the order
of encounter among equals.  Nothing is asked of the names here.  Where one name is
carried twice, a parent name stands for the last error of that name.
-/

namespace ErrorTaxonomy

theorem lt_length_of_lastIndex? {α : Type} [DecidableEq α] {a : α} {list : List α}
    {index : Nat} (hindex : lastIndex? a list = some index) : index < list.length := by
  induction list generalizing index with
  | nil => simp [lastIndex?] at hindex
  | cons b rest ih =>
      rw [lastIndex?] at hindex
      cases hrest : lastIndex? a rest with
      | some earlier =>
          have hlt := ih hrest
          simp only [hrest, Option.some.injEq] at hindex
          rw [List.length_cons]
          omega
      | none =>
          simp only [hrest, Option.ite_none_right_eq_some, Option.some.injEq] at hindex
          simp [← hindex.2]

namespace Hierarchy

/-- The parent of an error is the last error that carries its parent name. -/
def declared (pending : List PendingError) : Hierarchy where
  size := pending.length
  parent? node :=
    (pending[node]?.bind PendingError.parent).bind fun parent =>
      lastIndex? parent (pending.map PendingError.name)

/-- All nodes in ascending order of their inversions, and in the order of encounter
where these are equal. -/
structure Arranges (hierarchy : Hierarchy) (nodes : List Nat) : Prop where
  chain_ends : ∀ node < hierarchy.size,
    hierarchy.Ascends node (hierarchy.lineage node)
  perm : nodes.Perm (List.range hierarchy.size)
  sorted : nodes.Pairwise fun a b =>
    hierarchy.inversions a < hierarchy.inversions b ∨
      hierarchy.inversions a = hierarchy.inversions b ∧ a < b
  settled : (∀ child parent, hierarchy.Inherits child parent → parent < child) →
    nodes = List.range hierarchy.size
  stable : ∀ a b, a < b → b < hierarchy.size →
    hierarchy.inversions a = hierarchy.inversions b → [a, b].Sublist nodes

variable {hierarchy : Hierarchy}

theorem declared_bounded (pending : List PendingError) : (declared pending).Bounded where
  child_lt := by
    intro child parent hparent
    simp only [Inherits, declared, Option.bind_eq_some_iff] at hparent
    rcases hparent with ⟨_, ⟨_, hchild, _⟩, _⟩
    exact (List.getElem?_eq_some_iff.mp hchild).1
  parent_lt := by
    intro child parent hparent
    simp only [Inherits, declared, Option.bind_eq_some_iff] at hparent
    rcases hparent with ⟨_, _, hindex⟩
    have hlt := lt_length_of_lastIndex? hindex
    rwa [List.length_map] at hlt

theorem declared_parent?_append (before after : List PendingError)
    (pending : PendingError) :
    (declared (before ++ pending :: after)).parent? before.length =
      pending.parent.bind fun parent =>
        lastIndex? parent ((before ++ pending :: after).map PendingError.name) := by
  simp [declared]

theorem isInverted_eq_false_of_settled
    (hsettled : ∀ child parent, hierarchy.Inherits child parent → parent < child)
    (node : Nat) : hierarchy.isInverted node = false := by
  cases hparent : hierarchy.parent? node with
  | none => simp [isInverted, hparent]
  | some parent =>
      have hlt := hsettled node parent hparent
      simp only [isInverted, hparent, decide_eq_false_iff_not]
      omega

theorem arranged_pairwise_lt (hierarchy : Hierarchy) :
    hierarchy.arranged.Pairwise fun a b =>
      hierarchy.inversions a < hierarchy.inversions b ∨
        hierarchy.inversions a = hierarchy.inversions b ∧ a < b := by
  have hdistinct : hierarchy.arranged.Pairwise fun a b => a ≠ b := hierarchy.arranged_nodup
  refine (hierarchy.arranged_pairwise.and hdistinct).imp ?_
  intro a b hab
  have hprecedes := precedes_iff.mp hab.1
  have hne := hab.2
  omega

theorem sublist_arranged {a b : Nat} (hlt : a < b) (hb : b < hierarchy.size)
    (heq : hierarchy.inversions a = hierarchy.inversions b) :
    [a, b].Sublist hierarchy.arranged := by
  have hmem : b ∈ hierarchy.arranged := mem_arranged.mpr hb
  obtain ⟨before, after, hsplit⟩ := List.append_of_mem hmem
  have ha : a ∈ hierarchy.arranged := mem_arranged.mpr (by omega)
  have hsorted := hierarchy.arranged_pairwise_lt
  rw [hsplit, List.pairwise_append, List.pairwise_cons] at hsorted
  rw [hsplit] at ha ⊢
  have hbefore : a ∈ before := by
    rcases List.mem_append.mp ha with hbefore | hrest
    · exact hbefore
    · rcases List.mem_cons.mp hrest with rfl | hafter
      · omega
      · have hlater := hsorted.2.1.1 a hafter
        omega
  have hfirst : [a].Sublist before := List.singleton_sublist.mpr hbefore
  have hsecond : [b].Sublist (b :: after) := List.singleton_sublist.mpr List.mem_cons_self
  exact hfirst.append hsecond

theorem IsForest.arranges (hforest : hierarchy.IsForest) :
    hierarchy.Arranges hierarchy.arranged where
  chain_ends := fun _ hnode => hforest.ascends_lineage hnode
  perm := hierarchy.arranged_perm
  sorted := hierarchy.arranged_pairwise_lt
  settled := fun hsettled => arranged_eq_range (isInverted_eq_false_of_settled hsettled)
  stable := fun _ _ hlt hb heq => sublist_arranged hlt hb heq

end Hierarchy

open Hierarchy

theorem links_eq_of_linkParents {all done rest : List PendingError}
    {links : InheritanceLinks} (hall : done ++ rest = all)
    (hlinks : linkParents (.ofNames (all.map PendingError.name)) done.length
      ((declared all).linksBefore done.length) rest = .ok links) :
    links = (declared all).linksBefore all.length := by
  induction rest generalizing done with
  | nil =>
      rw [List.append_nil] at hall
      subst hall
      exact (Except.ok.inj hlinks).symm
  | cons pending rest ih =>
      have hnode := declared_parent?_append done rest pending
      rw [hall] at hnode
      have hrest : (done ++ [pending]) ++ rest = all := by simpa using hall
      have hnext := ih hrest
      rw [List.length_append, List.length_singleton] at hnext
      rw [linkParents] at hlinks
      cases hparent : pending.parent with
      | none =>
          rw [hparent, Option.bind_none] at hnode
          rw [linksBefore_succ_of_root hnode] at hnext
          simp only [hparent] at hlinks
          exact hnext hlinks
      | some parent =>
          simp only [hparent, NameIndex.node?_ofNames] at hlinks
          cases hindex : lastIndex? parent (all.map PendingError.name) with
          | none => simp [hindex] at hlinks
          | some index =>
              rw [hparent, Option.bind_some, hindex] at hnode
              rw [linksBefore_succ_of_parent (declared_bounded all) hnode] at hnext
              simp only [hindex] at hlinks
              exact hnext hlinks

namespace InheritanceGraph

variable {graph : InheritanceGraph} {hierarchy : Hierarchy} {pending : List PendingError}

theorem hierarchy_eq_of_links (hbounded : hierarchy.Bounded)
    (hlinks : graph.links = hierarchy.linksBefore hierarchy.size) :
    graph.hierarchy = hierarchy := by
  have hsize : graph.size = hierarchy.size := by
    simp [size, hlinks, linksBefore]
  have hparents : graph.parent? = hierarchy.parent? := by
    funext node
    rw [parent?, hlinks]
    exact hbounded.join_parents node
  rw [InheritanceGraph.hierarchy, hsize, hparents]

theorem wellLinked_of_links (hbounded : hierarchy.Bounded)
    (hlinks : graph.links = hierarchy.linksBefore hierarchy.size) : graph.WellLinked := by
  have hhierarchy := hierarchy_eq_of_links hbounded hlinks
  constructor
  · rw [hhierarchy]
    exact hbounded
  · intro parent
    have hchildren := hbounded.getD_children parent
    rw [← hlinks, ← hhierarchy] at hchildren
    exact hchildren

theorem links_eq_of_build (hbuild : build pending = .ok graph) :
    graph.links = (declared pending).linksBefore (declared pending).size := by
  rcases bind_eq_ok_iff.mp hbuild with ⟨links, hlinks, hrest⟩
  rcases bind_eq_ok_iff.mp hrest with ⟨_, _, hgraph⟩
  have hstart := linksBefore_zero (declared pending)
  change _ = InheritanceLinks.unlinked pending.length at hstart
  rw [← hstart] at hlinks
  have heq := links_eq_of_linkParents (List.nil_append pending) hlinks
  rw [← Except.ok.inj hgraph]
  exact heq

theorem wellLinked_of_build (hbuild : build pending = .ok graph) : graph.WellLinked :=
  wellLinked_of_links (declared_bounded pending) (links_eq_of_build hbuild)

/-- A graph that is built is a forest, whatever names its errors carry. -/
theorem isForest_of_build (hbuild : build pending = .ok graph) :
    graph.hierarchy.IsForest := by
  have hlinked := wellLinked_of_build hbuild
  rcases bind_eq_ok_iff.mp hbuild with ⟨links, _, hrest⟩
  rcases bind_eq_ok_iff.mp hrest with ⟨_, hcheck, hgraph⟩
  rw [← Except.ok.inj hgraph] at hlinked ⊢
  exact (checkAcyclic_eq_ok_iff hlinked.bounded).mp hcheck

end InheritanceGraph

/-- The order of a graph that is built, with either strategy. -/
theorem order_of_build (strategy : OrderingStrategy) (pending : List PendingError)
    (graph : InheritanceGraph) (hbuild : InheritanceGraph.build pending = .ok graph) :
    ∃ nodes, (graph.order strategy).outcome = .ok nodes ∧
      (declared pending).Arranges nodes := by
  have hlinks := InheritanceGraph.links_eq_of_build hbuild
  have hforest := InheritanceGraph.isForest_of_build hbuild
  have hlinked := InheritanceGraph.wellLinked_of_links (declared_bounded pending) hlinks
  have horder := InheritanceGraph.outcome_order hforest hlinked strategy
  rw [InheritanceGraph.hierarchy_eq_of_links (declared_bounded pending) hlinks]
    at hforest horder
  exact ⟨_, horder, hforest.arranges⟩

/-- A chain that turns twice: `Full` is met before its parent, `Quota` and `Disk`
after theirs. -/
def turningChain : List PendingError :=
  [{ name := "Full", interface := none, message := "", level := .error
     parent := some "Disk", entries := [] },
    { name := "Io", interface := none, message := "", level := .error
      parent := none, entries := [] },
    { name := "Quota", interface := none, message := "", level := .notice
      parent := some "Full", entries := [] },
    { name := "Disk", interface := none, message := "", level := .error
      parent := some "Io", entries := [] }]

def turningGraph : InheritanceGraph where
  names := .ofNames ["Full", "Io", "Quota", "Disk"]
  links :=
    { parents := [some 3, none, some 0, some 1]
      children := [[2], [3], [], [0]] }

theorem turningChain_ordered :
    InheritanceGraph.build turningChain = .ok turningGraph ∧
      ∃ nodes, (turningGraph.order .multiPass).outcome = .ok nodes ∧
        (declared turningChain).Arranges nodes := by
  have hbuild : InheritanceGraph.build turningChain = .ok turningGraph := by
    decide +kernel
  exact ⟨hbuild, order_of_build .multiPass turningChain turningGraph hbuild⟩

end ErrorTaxonomy
