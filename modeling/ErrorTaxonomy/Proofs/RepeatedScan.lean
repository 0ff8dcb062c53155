import ErrorTaxonomy.Proofs.InheritanceLinks

/-!
# The repeated scan

The number of inversions of a node is the number of the scan that places it,
counted from zero.  When a scan begins, the nodes of the earlier scans are
placed, and within a scan a node is placed exactly if its inversions equal the
number of the scan: an inverted node comes before its parent and has to wait for
the next scan, any other node comes after its parent and is placed in the same
one.  The inversions met on a chain leave no gap, so every scan before the last
places a node.
-/

namespace ErrorTaxonomy

namespace Hierarchy

variable {hierarchy : Hierarchy}

/-- The nodes with the given number of inversions, in the order of encounter. -/
def layer (hierarchy : Hierarchy) (pass : Nat) : List Nat :=
  (List.range hierarchy.size).filter fun node => hierarchy.inversions node = pass

/-- The layers of the first passes one after the other. -/
def layersBelow (hierarchy : Hierarchy) (pass : Nat) : List Nat :=
  (List.range pass).flatMap hierarchy.layer

/-- The number of layers that hold a node. -/
def passes (hierarchy : Hierarchy) : Nat :=
  (hierarchy.arranged.getLast?.map fun node => hierarchy.inversions node + 1).getD 0

theorem layersBelow_succ (pass : Nat) :
    hierarchy.layersBelow (pass + 1) =
      hierarchy.layersBelow pass ++ hierarchy.layer pass := by
  simp [layersBelow, List.range_succ]

theorem mem_layersBelow {pass node : Nat} :
    node ∈ hierarchy.layersBelow pass ↔
      node < hierarchy.size ∧ hierarchy.inversions node < pass := by
  simp only [layersBelow, layer, List.mem_flatMap, List.mem_range, List.mem_filter,
    decide_eq_true_eq]
  constructor
  · rintro ⟨_, hpass, hnode, rfl⟩
    exact ⟨hnode, hpass⟩
  · rintro ⟨hnode, hpass⟩
    exact ⟨_, hpass, hnode, rfl⟩

theorem layersBelow_pairwise (pass : Nat) :
    (hierarchy.layersBelow pass).Pairwise fun a b =>
      hierarchy.inversions a < hierarchy.inversions b ∨
        hierarchy.inversions a = hierarchy.inversions b ∧ a < b := by
  refine List.pairwise_flatMap.mpr ⟨?_, ?_⟩
  · intro earlier _
    refine List.pairwise_filter.mpr (List.pairwise_lt_range.imp ?_)
    intro a b hlt ha hb
    rw [decide_eq_true_eq] at ha hb
    exact .inr ⟨ha.trans hb.symm, hlt⟩
  · refine List.pairwise_lt_range.imp ?_
    intro earlier later hlt a ha b hb
    simp only [layer, List.mem_filter, decide_eq_true_eq] at ha hb
    left
    omega

theorem layersBelow_nodup (pass : Nat) : (hierarchy.layersBelow pass).Nodup := by
  refine (layersBelow_pairwise pass).imp ?_
  rintro a b hab rfl
  omega

theorem passes_eq_of_getLast? {last : Nat}
    (hlast : hierarchy.arranged.getLast? = some last) :
    hierarchy.passes = hierarchy.inversions last + 1 := by
  rw [passes, hlast]
  rfl

theorem inversions_lt_passes {node : Nat} (hnode : node < hierarchy.size) :
    hierarchy.inversions node < hierarchy.passes := by
  have hmem := mem_arranged.mpr hnode
  obtain ⟨last, hlast⟩ :=
    Option.ne_none_iff_exists'.mp (mt List.getLast?_eq_none_iff.mp (List.ne_nil_of_mem hmem))
  rcases List.getLast?_eq_some_iff.mp hlast with ⟨before, hbefore⟩
  have hsorted := hierarchy.arranged_pairwise
  rw [hbefore, List.pairwise_append] at hsorted
  rw [passes_eq_of_getLast? hlast, Nat.lt_succ_iff]
  rw [hbefore, List.mem_append, List.mem_singleton] at hmem
  rcases hmem with hearlier | rfl
  · have hprecedes := hsorted.2.2 node hearlier last (List.mem_singleton_self last)
    rw [precedes_iff] at hprecedes
    omega
  · exact Nat.le_refl _

theorem IsForest.exists_mem_layer (hforest : hierarchy.IsForest) {pass : Nat}
    (hpass : pass < hierarchy.passes) : ∃ node, node ∈ hierarchy.layer pass := by
  cases hlast : hierarchy.arranged.getLast? with
  | none =>
      rw [passes, hlast] at hpass
      exact absurd hpass (Nat.not_lt_zero pass)
  | some last =>
      rw [passes_eq_of_getLast? hlast] at hpass
      have hlt := mem_arranged.mp (List.mem_of_getLast? hlast)
      obtain ⟨node, hnode, hinversions⟩ :=
        hforest.exists_inversions_eq hlt (Nat.le_of_lt_succ hpass)
      refine ⟨node, ?_⟩
      simp [layer, hnode, hinversions]

theorem layersBelow_passes : hierarchy.layersBelow hierarchy.passes = hierarchy.arranged := by
  refine eq_arranged (layersBelow_nodup _) ?_ ?_
  · intro node
    rw [mem_layersBelow]
    exact ⟨And.left, fun hnode => ⟨hnode, inversions_lt_passes hnode⟩⟩
  · refine (layersBelow_pairwise _).imp ?_
    intro a b hab
    rw [precedes_iff]
    omega

end Hierarchy

namespace InheritanceGraph

variable {graph : InheritanceGraph}

open Hierarchy

/-- What is placed when a scan has visited its first nodes. -/
def placedDuring (graph : InheritanceGraph) (pass count : Nat) : List Nat :=
  graph.hierarchy.layersBelow pass ++
    (List.range count).filter fun node => graph.hierarchy.inversions node = pass

theorem mem_placedDuring {pass count node : Nat} :
    node ∈ graph.placedDuring pass count ↔
      node < graph.size ∧ graph.hierarchy.inversions node < pass ∨
        node < count ∧ graph.hierarchy.inversions node = pass := by
  rw [placedDuring, List.mem_append, mem_layersBelow, List.mem_filter, List.mem_range,
    decide_eq_true_eq]
  rfl

theorem placedDuring_succ (pass count : Nat) :
    graph.placedDuring pass (count + 1) =
      if graph.hierarchy.inversions count = pass then
        graph.placedDuring pass count ++ [count]
      else graph.placedDuring pass count := by
  unfold placedDuring
  rw [List.range_succ, List.filter_append, ← List.append_assoc]
  by_cases heq : graph.hierarchy.inversions count = pass <;> simp [heq]

theorem isReady_placedDuring (hforest : graph.hierarchy.IsForest) {pass node : Nat}
    (hpass : pass ≤ graph.hierarchy.inversions node) :
    graph.isReady (graph.placedDuring pass node) node =
      decide (graph.hierarchy.inversions node = pass) := by
  unfold isReady
  cases hparent : graph.parent? node with
  | none =>
      have hroot : graph.hierarchy.inversions node = 0 := inversions_of_root hparent
      have hzero : pass = 0 := by omega
      simp [hroot, hzero]
  | some parent =>
      have hlt : parent < graph.size := hforest.parent_lt hparent
      have hne : parent ≠ node := hforest.parent_ne hparent
      have hstep := hforest.inversions_of_parent hparent
      simp only [List.contains_eq_mem, decide_eq_decide, mem_placedDuring]
      unfold childScan at hstep
      split at hstep <;> omega

theorem place_placedDuring (hforest : graph.hierarchy.IsForest) {pass node : Nat}
    (hnode : node < graph.size) :
    graph.place (graph.placedDuring pass node) node =
      graph.placedDuring pass (node + 1) := by
  rw [placedDuring_succ, place, List.contains_eq_mem]
  by_cases hearlier : graph.hierarchy.inversions node < pass
  · have hmem : node ∈ graph.placedDuring pass node :=
      mem_placedDuring.mpr (.inl ⟨hnode, hearlier⟩)
    simp [hmem, Nat.ne_of_lt hearlier]
  · have hfresh : node ∉ graph.placedDuring pass node := by
      rw [mem_placedDuring]
      omega
    rw [isReady_placedDuring hforest (Nat.le_of_not_lt hearlier)]
    simp [hfresh]

/-- One scan places one layer. -/
theorem scan_layersBelow (hforest : graph.hierarchy.IsForest) (pass : Nat) :
    graph.scan (graph.hierarchy.layersBelow pass) =
      graph.hierarchy.layersBelow (pass + 1) := by
  have hprefix : ∀ count ≤ graph.size,
      (List.range count).foldl graph.place (graph.hierarchy.layersBelow pass) =
        graph.placedDuring pass count := by
    intro count hcount
    induction count with
    | zero => simp [placedDuring]
    | succ node ih =>
        rw [List.range_succ, List.foldl_append, ih (by omega), List.foldl_cons,
          List.foldl_nil, place_placedDuring hforest hcount]
  rw [scan, hprefix _ (Nat.le_refl _), layersBelow_succ]
  rfl

theorem length_layersBelow_lt (hforest : graph.hierarchy.IsForest) {pass : Nat}
    (hpass : pass < graph.hierarchy.passes) :
    (graph.hierarchy.layersBelow pass).length < graph.size := by
  rcases hforest.exists_mem_layer hpass with ⟨node, hnode⟩
  simp only [layer, List.mem_filter, List.mem_range, decide_eq_true_eq] at hnode
  have hfresh : node ∉ graph.hierarchy.layersBelow pass := by
    rw [mem_layersBelow]
    omega
  have hsubset : node :: graph.hierarchy.layersBelow pass ⊆ List.range graph.size := by
    intro other hmem
    rw [List.mem_range]
    rcases List.mem_cons.mp hmem with rfl | hmem
    · exact hnode.1
    · exact (mem_layersBelow.mp hmem).1
  have hlength :=
    (List.nodup_cons.mpr ⟨hfresh, layersBelow_nodup pass⟩).length_le_of_subset hsubset
  rwa [List.length_cons, List.length_range] at hlength

theorem scanRepeatedly_layersBelow (hforest : graph.hierarchy.IsForest) (pass : Nat)
    (hpass : pass ≤ graph.hierarchy.passes) :
    graph.scanRepeatedly (graph.hierarchy.layersBelow pass) pass =
      .ok { nodes := graph.hierarchy.arranged, passes := graph.hierarchy.passes } := by
  induction hrest : graph.hierarchy.passes - pass generalizing pass with
  | zero =>
      have heq : pass = graph.hierarchy.passes := by omega
      subst heq
      rw [scanRepeatedly, layersBelow_passes]
      have hlength : graph.hierarchy.arranged.length = graph.size := by
        simp [arranged, hierarchy]
      simp [hlength]
  | succ rest ih =>
      have hlt : pass < graph.hierarchy.passes := by omega
      rcases hforest.exists_mem_layer hlt with ⟨node, hnode⟩
      have hgrows : (graph.hierarchy.layersBelow (pass + 1)).length ≠
          (graph.hierarchy.layersBelow pass).length := by
        have hpositive := List.length_pos_of_mem hnode
        rw [layersBelow_succ, List.length_append]
        omega
      rw [scanRepeatedly, scan_layersBelow hforest, dif_pos (length_layersBelow_lt hforest hlt),
        dif_neg hgrows]
      exact ih (pass + 1) hlt (by omega)

/-- Literal scanning arranges the nodes of a forest by their inversions. -/
theorem arrangeByScanning_eq (hforest : graph.hierarchy.IsForest) :
    graph.arrangeByScanning =
      .ok { nodes := graph.hierarchy.arranged, passes := graph.hierarchy.passes } :=
  scanRepeatedly_layersBelow hforest 0 (Nat.zero_le _)

end InheritanceGraph

end ErrorTaxonomy
