import ErrorTaxonomy.CompiledOrder
import Mathlib.Logic.Relation

/-!
# Chains of parents

Nodes are numbered in the order of encounter and each has at most one parent.
From a node the parents are followed as long as there are any.  Where every
such chain ends the nodes form a forest, and the chain of a node is then the
node and its ancestors, each once.

A node is inverted if it is met before its parent.  The inversions of a node
count the inverted nodes on its chain; they grow by one from a parent to a
child that is met earlier and stay the same otherwise.  Sorting all nodes by
their inversions, and by the order of encounter among equals, arranges them so
that every parent comes before its children.
-/

namespace ErrorTaxonomy

/-- Numbered nodes with at most one parent each. -/
structure Hierarchy where
  size : Nat
  parent? : Nat → Option Nat

namespace Hierarchy

/-- A node and its ancestors, nearest first, as many as the fuel allows. -/
def lineageWithin (hierarchy : Hierarchy) : Nat → Nat → List Nat
  | 0, _ => []
  | fuel + 1, node =>
      node ::
        match hierarchy.parent? node with
        | none => []
        | some parent => hierarchy.lineageWithin fuel parent

/-- A node and its ancestors.  In a forest no chain is longer than the number
of nodes, so the fuel never cuts one short. -/
def lineage (hierarchy : Hierarchy) (node : Nat) : List Nat :=
  hierarchy.lineageWithin hierarchy.size node

/-- The parent of the node comes after it in the order of encounter. -/
def isInverted (hierarchy : Hierarchy) (node : Nat) : Bool :=
  match hierarchy.parent? node with
  | none => false
  | some parent => node < parent

def inversions (hierarchy : Hierarchy) (node : Nat) : Nat :=
  (hierarchy.lineage node).countP hierarchy.isInverted

/-- Fewer inversions first, and the order of encounter among equals. -/
def precedes (hierarchy : Hierarchy) (a b : Nat) : Bool :=
  InheritanceGraph.keyLe (hierarchy.inversions a, a) (hierarchy.inversions b, b)

def arranged (hierarchy : Hierarchy) : List Nat :=
  (List.range hierarchy.size).mergeSort hierarchy.precedes

def Inherits (hierarchy : Hierarchy) (child parent : Nat) : Prop :=
  hierarchy.parent? child = some parent

/-- Following parents from a node ends at a node without one and visits exactly
the given list. -/
inductive Ascends (hierarchy : Hierarchy) : Nat → List Nat → Prop
  | root {node : Nat} :
      hierarchy.parent? node = none → Ascends hierarchy node [node]
  | child {node parent : Nat} {chain : List Nat} :
      hierarchy.parent? node = some parent → Ascends hierarchy parent chain →
        Ascends hierarchy node (node :: chain)

def Rooted (hierarchy : Hierarchy) (node : Nat) : Prop :=
  ∃ chain, hierarchy.Ascends node chain

/-- Only the numbered nodes have parents and are parents. -/
structure Bounded (hierarchy : Hierarchy) : Prop where
  child_lt : ∀ {child parent}, hierarchy.Inherits child parent → child < hierarchy.size
  parent_lt : ∀ {child parent}, hierarchy.Inherits child parent → parent < hierarchy.size

structure IsForest (hierarchy : Hierarchy) : Prop extends hierarchy.Bounded where
  rooted : ∀ node < hierarchy.size, hierarchy.Rooted node

variable {hierarchy : Hierarchy}

theorem Rooted.of_root {node : Nat} (hparent : hierarchy.parent? node = none) :
    hierarchy.Rooted node :=
  ⟨[node], .root hparent⟩

theorem Rooted.of_parent {node parent : Nat}
    (hparent : hierarchy.parent? node = some parent)
    (hrooted : hierarchy.Rooted parent) : hierarchy.Rooted node := by
  rcases hrooted with ⟨chain, hchain⟩
  exact ⟨node :: chain, .child hparent hchain⟩

theorem Rooted.not_transGen_self {node : Nat} (hrooted : hierarchy.Rooted node) :
    ¬ Relation.TransGen hierarchy.Inherits node node := by
  rcases hrooted with ⟨chain, hchain⟩
  induction hchain with
  | root hparent =>
      intro hcycle
      rcases Relation.TransGen.head'_iff.mp hcycle with ⟨next, hnext, -⟩
      rw [Inherits, hparent] at hnext
      contradiction
  | @child node parent chain hparent _ ih =>
      intro hcycle
      rcases Relation.TransGen.head'_iff.mp hcycle with ⟨next, hnext, hback⟩
      have heq : next = parent := by
        rw [Inherits, hparent] at hnext
        exact (Option.some.inj hnext).symm
      subst heq
      exact ih (Relation.TransGen.tail' hback hparent)

theorem Ascends.reaches {node ancestor : Nat} {chain : List Nat}
    (hchain : hierarchy.Ascends node chain) (hmem : ancestor ∈ chain) :
    Relation.ReflTransGen hierarchy.Inherits node ancestor := by
  induction hchain with
  | root _ =>
      rw [List.mem_singleton] at hmem
      subst hmem
      exact .refl
  | child hparent _ ih =>
      rcases List.mem_cons.mp hmem with rfl | hmem
      · exact .refl
      · exact .head hparent (ih hmem)

theorem Ascends.nodup {node : Nat} {chain : List Nat}
    (hchain : hierarchy.Ascends node chain) : chain.Nodup := by
  induction hchain with
  | root _ => simp
  | @child node parent chain hparent hrest ih =>
      refine List.nodup_cons.mpr ⟨?_, ih⟩
      intro hmem
      have hrooted : hierarchy.Rooted node := ⟨_, .child hparent hrest⟩
      exact hrooted.not_transGen_self (.head' hparent (hrest.reaches hmem))

theorem Ascends.lt_size {node ancestor : Nat} {chain : List Nat}
    (hbounded : hierarchy.Bounded) (hnode : node < hierarchy.size)
    (hchain : hierarchy.Ascends node chain) (hmem : ancestor ∈ chain) :
    ancestor < hierarchy.size := by
  rcases (hchain.reaches hmem).cases_tail with rfl | ⟨child, _, hparent⟩
  · exact hnode
  · exact hbounded.parent_lt hparent

theorem Ascends.length_le {node : Nat} {chain : List Nat}
    (hbounded : hierarchy.Bounded) (hnode : node < hierarchy.size)
    (hchain : hierarchy.Ascends node chain) : chain.length ≤ hierarchy.size := by
  have hsubset : chain ⊆ List.range hierarchy.size := by
    intro ancestor hmem
    exact List.mem_range.mpr (hchain.lt_size hbounded hnode hmem)
  have hlength := hchain.nodup.length_le_of_subset hsubset
  rwa [List.length_range] at hlength

theorem Ascends.lineageWithin_eq {node : Nat} {chain : List Nat}
    (hchain : hierarchy.Ascends node chain) {fuel : Nat}
    (hfuel : chain.length ≤ fuel) : hierarchy.lineageWithin fuel node = chain := by
  induction hchain generalizing fuel with
  | root hparent =>
      obtain ⟨fuel, rfl⟩ : ∃ rest, fuel = rest + 1 :=
        Nat.exists_eq_add_of_le' hfuel
      simp [lineageWithin, hparent]
  | child hparent _ ih =>
      rw [List.length_cons] at hfuel
      obtain ⟨fuel, rfl⟩ : ∃ rest, fuel = rest + 1 :=
        ⟨fuel - 1, by omega⟩
      simp [lineageWithin, hparent, ih (Nat.le_of_succ_le_succ hfuel)]

theorem IsForest.ascends_lineage (hforest : hierarchy.IsForest) {node : Nat}
    (hnode : node < hierarchy.size) :
    hierarchy.Ascends node (hierarchy.lineage node) := by
  rcases hforest.rooted node hnode with ⟨chain, hchain⟩
  have hlength := hchain.length_le hforest.toBounded hnode
  rw [lineage, hchain.lineageWithin_eq hlength]
  exact hchain

theorem inversions_of_root {node : Nat} (hparent : hierarchy.parent? node = none) :
    hierarchy.inversions node = 0 := by
  unfold inversions lineage
  cases hierarchy.size with
  | zero => rfl
  | succ fuel => simp [lineageWithin, hparent, isInverted]

theorem IsForest.lineage_of_parent (hforest : hierarchy.IsForest) {node parent : Nat}
    (hparent : hierarchy.parent? node = some parent) :
    hierarchy.lineage node = node :: hierarchy.lineage parent := by
  have hnode := hforest.child_lt hparent
  have hchain := hforest.ascends_lineage (hforest.parent_lt hparent)
  have hwhole : hierarchy.Ascends node (node :: hierarchy.lineage parent) :=
    .child hparent hchain
  exact hwhole.lineageWithin_eq (hwhole.length_le hforest.toBounded hnode)

theorem IsForest.inversions_of_parent (hforest : hierarchy.IsForest)
    {node parent : Nat} (hparent : hierarchy.parent? node = some parent) :
    hierarchy.inversions node =
      InheritanceGraph.childScan parent (hierarchy.inversions parent) node := by
  unfold inversions InheritanceGraph.childScan
  rw [hforest.lineage_of_parent hparent, List.countP_cons]
  by_cases hlt : node < parent <;> simp [isInverted, hparent, hlt]

/-- From an inverted chain every smaller number of inversions is met on the
way up. -/
theorem IsForest.exists_inversions_eq (hforest : hierarchy.IsForest) {node count : Nat}
    (hnode : node < hierarchy.size) (hcount : count ≤ hierarchy.inversions node) :
    ∃ other < hierarchy.size, hierarchy.inversions other = count := by
  rcases hforest.rooted node hnode with ⟨chain, hchain⟩
  induction hchain with
  | root hparent =>
      rw [inversions_of_root hparent, Nat.le_zero] at hcount
      exact ⟨_, hnode, by rw [inversions_of_root hparent, hcount]⟩
  | @child node parent chain hparent _ ih =>
      by_cases heq : count = hierarchy.inversions node
      · exact ⟨node, hnode, heq.symm⟩
      · refine ih (hforest.parent_lt hparent) ?_
        have hstep := hforest.inversions_of_parent hparent
        unfold InheritanceGraph.childScan at hstep
        split at hstep <;> omega

theorem precedes_iff {a b : Nat} :
    hierarchy.precedes a b = true ↔
      hierarchy.inversions a < hierarchy.inversions b ∨
        hierarchy.inversions a = hierarchy.inversions b ∧ a ≤ b := by
  simp [precedes, InheritanceGraph.keyLe]

theorem precedes_trans {a b c : Nat} (hab : hierarchy.precedes a b = true)
    (hbc : hierarchy.precedes b c = true) : hierarchy.precedes a c = true := by
  rw [precedes_iff] at hab hbc ⊢
  omega

theorem precedes_total (a b : Nat) :
    (hierarchy.precedes a b || hierarchy.precedes b a) = true := by
  rw [Bool.or_eq_true, precedes_iff, precedes_iff]
  omega

theorem precedes_antisymm {a b : Nat} (hab : hierarchy.precedes a b = true)
    (hba : hierarchy.precedes b a = true) : a = b := by
  rw [precedes_iff] at hab hba
  omega

theorem arranged_perm (hierarchy : Hierarchy) :
    hierarchy.arranged.Perm (List.range hierarchy.size) :=
  List.mergeSort_perm _ _

theorem arranged_nodup (hierarchy : Hierarchy) : hierarchy.arranged.Nodup :=
  (hierarchy.arranged_perm.nodup_iff).mpr List.nodup_range

theorem mem_arranged {node : Nat} :
    node ∈ hierarchy.arranged ↔ node < hierarchy.size := by
  rw [hierarchy.arranged_perm.mem_iff, List.mem_range]

theorem arranged_pairwise (hierarchy : Hierarchy) :
    hierarchy.arranged.Pairwise fun a b => hierarchy.precedes a b = true := by
  apply List.pairwise_mergeSort
  · intro a b c
    exact precedes_trans
  · exact precedes_total

/-- The arrangement is the only list of all nodes that is sorted. -/
theorem eq_arranged {nodes : List Nat} (hnodup : nodes.Nodup)
    (hmem : ∀ node, node ∈ nodes ↔ node < hierarchy.size)
    (hsorted : nodes.Pairwise fun a b => hierarchy.precedes a b = true) :
    nodes = hierarchy.arranged := by
  have hperm : nodes.Perm hierarchy.arranged :=
    (List.perm_ext_iff_of_nodup hnodup hierarchy.arranged_nodup).mpr fun node => by
      rw [hmem, mem_arranged]
  exact hperm.eq_of_pairwise (fun _ _ _ _ => precedes_antisymm) hsorted
    hierarchy.arranged_pairwise

/-- Without inverted nodes the order of encounter stays. -/
theorem arranged_eq_range (hsettled : ∀ node, hierarchy.isInverted node = false) :
    hierarchy.arranged = List.range hierarchy.size := by
  have hinversions : ∀ node, hierarchy.inversions node = 0 := by
    intro node
    apply List.countP_eq_zero.mpr
    simp [hsettled]
  symm
  apply eq_arranged List.nodup_range
  · exact fun node => List.mem_range
  · refine List.pairwise_lt_range.imp fun {a b} hlt => ?_
    rw [precedes_iff, hinversions, hinversions]
    exact .inr ⟨rfl, Nat.le_of_lt hlt⟩

theorem IsForest.precedes_of_parent (hforest : hierarchy.IsForest)
    {node parent : Nat} (hparent : hierarchy.parent? node = some parent) :
    hierarchy.precedes parent node = true := by
  rw [precedes_iff, hforest.inversions_of_parent hparent, InheritanceGraph.childScan]
  split <;> omega

theorem IsForest.parent_ne (hforest : hierarchy.IsForest) {node parent : Nat}
    (hparent : hierarchy.parent? node = some parent) : parent ≠ node := by
  rintro rfl
  exact (hforest.rooted _ (hforest.parent_lt hparent)).not_transGen_self
    (.single hparent)

theorem IsForest.parent_mem_of_arranged_eq (hforest : hierarchy.IsForest)
    {before after : List Nat} {node parent : Nat}
    (harranged : hierarchy.arranged = before ++ node :: after)
    (hparent : hierarchy.parent? node = some parent) : parent ∈ before := by
  have hmem : parent ∈ before ++ node :: after := by
    rw [← harranged, mem_arranged]
    exact hforest.parent_lt hparent
  rcases List.mem_append.mp hmem with hbefore | hrest
  · exact hbefore
  · rcases List.mem_cons.mp hrest with heq | hafter
    · exact absurd heq (hforest.parent_ne hparent)
    · have hsorted := hierarchy.arranged_pairwise
      rw [harranged, List.pairwise_append] at hsorted
      have hprecedes := List.rel_of_pairwise_cons hsorted.2.1 hafter
      exact absurd (precedes_antisymm (hforest.precedes_of_parent hparent) hprecedes)
        (hforest.parent_ne hparent)

end Hierarchy

end ErrorTaxonomy
