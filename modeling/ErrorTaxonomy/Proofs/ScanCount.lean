import ErrorTaxonomy.Proofs.InversionOrder

/-!
# The number of scans

The repeated scan of a graph with inheritance places a node in every scan, and it
takes one scan more than the most inversions that a chain has.  The walk from the
roots notes the same number.  The last error of a chain has no parent and is never
inverted, so a chain has fewer inversions than errors and there are no more scans
than errors.  As many scans as errors are taken only by one chain of all errors on
which every child is met before its parent.
-/

namespace ErrorTaxonomy

namespace Hierarchy

variable {hierarchy : Hierarchy} {node : Nat} {chain : List Nat}

/-- All nodes are on one chain, and every child is met before its parent. -/
structure ChildFirstChain (hierarchy : Hierarchy) : Prop where
  single : ∃ start chain, hierarchy.Ascends start chain ∧
    chain.Perm (List.range hierarchy.size)
  child_first : ∀ child parent, hierarchy.Inherits child parent → child < parent

theorem Ascends.head_mem (hchain : hierarchy.Ascends node chain) : node ∈ chain := by
  cases hchain <;> simp

theorem Ascends.countP_isInverted_lt (hchain : hierarchy.Ascends node chain) :
    chain.countP hierarchy.isInverted < chain.length := by
  induction hchain with
  | root hparent => simp [isInverted, hparent]
  | child _ _ ih =>
      rw [List.countP_cons, List.length_cons]
      split <;> omega

theorem isInverted_iff {parent : Nat} (hparent : hierarchy.Inherits node parent) :
    hierarchy.isInverted node = true ↔ node < parent := by
  rw [Inherits] at hparent
  simp [isInverted, hparent]

/-- All but the last of a chain are inverted exactly if children are met first. -/
theorem Ascends.countP_isInverted_eq_iff (hchain : hierarchy.Ascends node chain) :
    chain.countP hierarchy.isInverted + 1 = chain.length ↔
      ∀ child ∈ chain, ∀ parent, hierarchy.Inherits child parent → child < parent := by
  induction hchain with
  | root hparent => simp [isInverted, hparent, Inherits]
  | @child node parent chain hparent hrest ih =>
      have hinverted : hierarchy.isInverted node = true ↔ node < parent :=
        isInverted_iff hparent
      have hnode : (∀ other, hierarchy.Inherits node other → node < other) ↔ node < parent := by
        simp [Inherits, hparent]
      have hlt := hrest.countP_isInverted_lt
      rw [List.forall_mem_cons, hnode, ← ih, List.countP_cons, List.length_cons]
      by_cases hfirst : node < parent
      · simp [hinverted.mpr hfirst, hfirst]
      · rw [if_neg (mt hinverted.mp hfirst)]
        simp only [hfirst, false_and, iff_false]
        omega

theorem IsForest.inversions_lt_size (hforest : hierarchy.IsForest)
    (hnode : node < hierarchy.size) : hierarchy.inversions node < hierarchy.size := by
  have hchain := hforest.ascends_lineage hnode
  have hlength := hchain.length_le hforest.toBounded hnode
  exact lt_of_lt_of_le hchain.countP_isInverted_lt hlength

theorem IsForest.exists_passes_eq (hforest : hierarchy.IsForest)
    (hnode : node < hierarchy.size) :
    ∃ last < hierarchy.size, hierarchy.inversions last + 1 = hierarchy.passes := by
  have hpositive := inversions_lt_passes hnode
  have hbelow : hierarchy.passes - 1 < hierarchy.passes := by omega
  rcases hforest.exists_mem_layer hbelow with ⟨last, hlast⟩
  simp only [layer, List.mem_filter, List.mem_range, decide_eq_true_eq] at hlast
  exact ⟨last, hlast.1, by omega⟩

theorem IsForest.passes_le_size (hforest : hierarchy.IsForest) (hnode : node < hierarchy.size) :
    hierarchy.passes ≤ hierarchy.size := by
  rcases hforest.exists_passes_eq hnode with ⟨last, hlast, hpasses⟩
  have hlt := hforest.inversions_lt_size hlast
  omega

theorem IsForest.childFirstChain_of_inversions (hforest : hierarchy.IsForest)
    (hnode : node < hierarchy.size)
    (hinversions : hierarchy.inversions node + 1 = hierarchy.size) :
    hierarchy.ChildFirstChain := by
  have hchain := hforest.ascends_lineage hnode
  have hlt := hchain.countP_isInverted_lt
  have hlength := hchain.length_le hforest.toBounded hnode
  unfold inversions at hinversions
  have hsubset : hierarchy.lineage node ⊆ List.range hierarchy.size := by
    intro ancestor hmem
    exact List.mem_range.mpr (hchain.lt_size hforest.toBounded hnode hmem)
  have hperm : (hierarchy.lineage node).Perm (List.range hierarchy.size) := by
    apply (hchain.nodup.subperm hsubset).perm_of_length_le
    rw [List.length_range]
    omega
  constructor
  · exact ⟨node, hierarchy.lineage node, hchain, hperm⟩
  · intro child parent hparent
    have hmem : child ∈ hierarchy.lineage node :=
      hperm.mem_iff.mpr (List.mem_range.mpr (hforest.child_lt hparent))
    exact hchain.countP_isInverted_eq_iff.mp (by omega) child hmem parent hparent

theorem ChildFirstChain.exists_inversions (hchildren : hierarchy.ChildFirstChain) :
    ∃ start < hierarchy.size, hierarchy.inversions start + 1 = hierarchy.size := by
  rcases hchildren.single with ⟨start, chain, hchain, hperm⟩
  have hstart : start < hierarchy.size :=
    List.mem_range.mp (hperm.mem_iff.mp hchain.head_mem)
  have hlength : chain.length = hierarchy.size := by
    rw [hperm.length_eq, List.length_range]
  have hlineage : hierarchy.lineage start = chain :=
    hchain.lineageWithin_eq (Nat.le_of_eq hlength)
  refine ⟨start, hstart, ?_⟩
  rw [inversions, hlineage, ← hlength]
  exact hchain.countP_isInverted_eq_iff.mpr fun child _ => hchildren.child_first child

theorem IsForest.passes_eq_size_iff (hforest : hierarchy.IsForest)
    (hnode : node < hierarchy.size) :
    hierarchy.passes = hierarchy.size ↔ hierarchy.ChildFirstChain := by
  constructor
  · intro hpasses
    rcases hforest.exists_passes_eq hnode with ⟨last, hlast, heq⟩
    exact hforest.childFirstChain_of_inversions hlast (heq.trans hpasses)
  · intro hchildren
    rcases hchildren.exists_inversions with ⟨start, hstart, heq⟩
    have hlt := inversions_lt_passes hstart
    have hle := hforest.passes_le_size hnode
    omega

end Hierarchy

namespace InheritanceGraph

open Hierarchy

variable {graph : InheritanceGraph}

theorem iterate_scan (hforest : graph.hierarchy.IsForest) (passes : Nat) :
    graph.scan^[passes] [] = graph.hierarchy.layersBelow passes := by
  induction passes with
  | zero => rfl
  | succ pass ih => rw [Function.iterate_succ_apply', ih, scan_layersBelow hforest]

theorem length_iterate_scan_lt (hforest : graph.hierarchy.IsForest) {pass : Nat}
    (hpass : pass < graph.hierarchy.passes) :
    (graph.scan^[pass] []).length < (graph.scan^[pass + 1] []).length := by
  rcases hforest.exists_mem_layer hpass with ⟨node, hnode⟩
  have hpositive := List.length_pos_of_mem hnode
  rw [iterate_scan hforest, iterate_scan hforest, layersBelow_succ, List.length_append]
  omega

theorem hasInheritance_of_parent? {child parent : Nat}
    (hparent : graph.parent? child = some parent) : graph.hasInheritance = true := by
  by_contra hflat
  rw [parent?_of_flat (Bool.eq_false_iff.mpr hflat)] at hparent
  contradiction

theorem journal_order (hforest : graph.hierarchy.IsForest) (hlinked : graph.WellLinked)
    (hinherits : graph.hasInheritance = true) (strategy : OrderingStrategy) :
    (graph.order strategy).journal =
      [{ level := .debug
         component := "errtax::order"
         message := arrangedMessage strategy
         details := [("passes", toString graph.hierarchy.passes)] }] := by
  unfold order
  rw [if_pos hinherits, Traced.journal_bind_of_ok (arrange_eq hforest hlinked strategy)]
  rfl

end InheritanceGraph

/-- How often a graph is scanned, given the parents of its errors. -/
structure ScannedTimes (graph : InheritanceGraph) (hierarchy : Hierarchy) (passes : Nat) :
    Prop where
  chain_ends : ∀ node < hierarchy.size,
    hierarchy.Ascends node (hierarchy.lineage node)
  finished : graph.arrangeByScanning = .ok { nodes := graph.scan^[passes] [], passes }
  complete : (graph.scan^[passes] []).Perm (List.range hierarchy.size)
  progress : ∀ pass < passes,
    (graph.scan^[pass] []).length < (graph.scan^[pass + 1] []).length
  inversions_le : ∀ node < hierarchy.size, 1 + hierarchy.inversions node ≤ passes
  inversions_eq : ∃ node < hierarchy.size, 1 + hierarchy.inversions node = passes
  noted : ∀ strategy, (graph.order strategy).journal =
    [{ level := .debug
       component := "errtax::order"
       message := InheritanceGraph.arrangedMessage strategy
       details := [("passes", toString passes)] }]
  le_size : passes ≤ hierarchy.size
  eq_size_iff : passes = hierarchy.size ↔ hierarchy.ChildFirstChain

open Hierarchy

theorem InheritanceGraph.scannedTimes_passes {graph : InheritanceGraph}
    (hforest : graph.hierarchy.IsForest) (hlinked : graph.WellLinked) {child parent : Nat}
    (hparent : graph.parent? child = some parent) :
    ScannedTimes graph graph.hierarchy graph.hierarchy.passes := by
  have hchild : child < graph.hierarchy.size := hforest.child_lt hparent
  have hplaced : graph.scan^[graph.hierarchy.passes] [] = graph.hierarchy.arranged := by
    rw [iterate_scan hforest, layersBelow_passes]
  constructor
  · exact fun _ hnode => hforest.ascends_lineage hnode
  · rw [hplaced, arrangeByScanning_eq hforest]
  · rw [hplaced]
    exact graph.hierarchy.arranged_perm
  · exact fun _ hpass => length_iterate_scan_lt hforest hpass
  · intro node hnode
    have hlt := inversions_lt_passes hnode
    omega
  · rcases hforest.exists_passes_eq hchild with ⟨last, hlast, heq⟩
    exact ⟨last, hlast, by omega⟩
  · exact journal_order hforest hlinked (hasInheritance_of_parent? hparent)
  · exact hforest.passes_le_size hchild
  · exact hforest.passes_eq_size_iff hchild

/-- Every graph that is built from errors of which one has a parent is scanned
once more than the most inversions on a chain. -/
theorem scannedTimes_of_build (pending : List PendingError) (graph : InheritanceGraph)
    (hbuild : InheritanceGraph.build pending = .ok graph) (child parent : Nat)
    (hparent : graph.parent? child = some parent) :
    ∃ passes, ScannedTimes graph (declared pending) passes := by
  have hlinks := InheritanceGraph.links_eq_of_build hbuild
  have hforest := InheritanceGraph.isForest_of_build hbuild
  have hlinked := InheritanceGraph.wellLinked_of_links (declared_bounded pending) hlinks
  have hscanned := InheritanceGraph.scannedTimes_passes hforest hlinked hparent
  rw [InheritanceGraph.hierarchy_eq_of_links (declared_bounded pending) hlinks] at hscanned
  exact ⟨_, hscanned⟩

theorem turningChain_scanned :
    InheritanceGraph.build turningChain = .ok turningGraph ∧
      turningGraph.parent? 0 = some 3 ∧
      ∃ passes, ScannedTimes turningGraph (declared turningChain) passes := by
  have hbuild : InheritanceGraph.build turningChain = .ok turningGraph := by
    decide +kernel
  exact ⟨hbuild, rfl, scannedTimes_of_build turningChain turningGraph hbuild 0 3 rfl⟩

end ErrorTaxonomy
