import ErrorTaxonomy.Proofs.RepeatedScan
import Mathlib.Data.List.Nodup
import Mathlib.Data.List.Perm.Subperm

/-!
# The walk from the roots

The walk takes waiting nodes one by one.  At any time the nodes it has entered
are the roots and the children of the nodes it has taken, each entered once, and
the scan noted for an entered node is its number of inversions.  In a forest a
node waits as long as not all nodes are taken, so as many steps as there are
nodes take every node.  Sorting by the noted scans is sorting by inversions, and
the walk arranges the nodes as the repeated scan does.
-/

namespace ErrorTaxonomy

namespace InheritanceGraph

open Hierarchy

def scanTable (graph : InheritanceGraph) (entered : List Nat) : List (Option Nat) :=
  (List.range graph.size).map fun node =>
    if node ∈ entered then some (graph.hierarchy.inversions node) else none

/-- The state of a walk that has entered some nodes, of which the last wait. -/
def walkState (graph : InheritanceGraph) (entered waiting : List Nat) : Walk where
  scans := graph.scanTable entered
  waiting

/-- A node is entered once, when its parent is taken or at the start. -/
structure WalkInvariant (graph : InheritanceGraph) (taken waiting : List Nat) :
    Prop where
  nodup : (taken ++ waiting).Nodup
  mem_iff : ∀ node, node ∈ taken ++ waiting ↔
    node < graph.size ∧ ∀ parent, graph.parent? node = some parent → parent ∈ taken

variable {graph : InheritanceGraph}

theorem scanTable_set (entered : List Nat) (node : Nat) :
    (graph.scanTable entered).set node (some (graph.hierarchy.inversions node)) =
      graph.scanTable (entered ++ [node]) := by
  apply List.ext_getElem
  · simp [scanTable]
  · intro other hother _
    by_cases heq : node = other
    · subst heq
      simp [scanTable]
    · simp [scanTable, heq, Ne.symm heq]

theorem foldl_enter {nodes : List Nat} {scan : Nat → Nat} (entered waiting : List Nat)
    (hscan : ∀ node ∈ nodes, scan node = graph.hierarchy.inversions node) :
    nodes.foldl (fun (walk : Walk) node => walk.enter node (scan node))
        (graph.walkState entered waiting) =
      graph.walkState (entered ++ nodes) (waiting ++ nodes) := by
  induction nodes generalizing entered waiting with
  | nil => simp
  | cons node rest ih =>
      have hrest := ih (entered ++ [node]) (waiting ++ [node])
        fun other hmem => hscan other (List.mem_cons_of_mem _ hmem)
      have henter : (graph.walkState entered waiting).enter node (scan node) =
          graph.walkState (entered ++ [node]) (waiting ++ [node]) := by
        rw [hscan node List.mem_cons_self]
        simp only [Walk.enter, Walk.number, Walk.push, walkState, scanTable_set]
      rw [List.foldl_cons, henter, hrest]
      simp

theorem mem_roots {node : Nat} :
    node ∈ graph.roots ↔ node < graph.size ∧ graph.parent? node = none := by
  simp [roots]

theorem startWalk_eq : graph.startWalk = graph.walkState graph.roots graph.roots := by
  have hempty : List.replicate graph.size none = graph.scanTable [] := by
    simp [scanTable, List.map_const']
  have hroots : ∀ node ∈ graph.roots, 0 = graph.hierarchy.inversions node := by
    intro node hnode
    exact (inversions_of_root (mem_roots.mp hnode).2).symm
  unfold startWalk
  rw [hempty]
  exact foldl_enter [] [] hroots

theorem walkInvariant_start : graph.WalkInvariant [] graph.roots where
  nodup := by
    rw [List.nil_append]
    exact List.nodup_range.filter _
  mem_iff := by
    intro node
    rw [List.nil_append, mem_roots]
    cases graph.parent? node <;> simp

theorem mem_children (hlinked : graph.WellLinked) {child parent : Nat} :
    child ∈ graph.children parent ↔ graph.parent? child = some parent := by
  rw [hlinked.children_eq, List.mem_filter, List.mem_range, decide_eq_true_eq]
  exact ⟨And.right, fun hparent => ⟨hlinked.bounded.child_lt hparent, hparent⟩⟩

theorem WellLinked.nodup_children (hlinked : graph.WellLinked) (parent : Nat) :
    (graph.children parent).Nodup := by
  rw [hlinked.children_eq]
  exact List.nodup_range.filter _

theorem getElem?_scanTable_eq_some_iff {entered : List Nat} {node scan : Nat} :
    (graph.scanTable entered)[node]? = some (some scan) ↔
      node < graph.size ∧ node ∈ entered ∧ graph.hierarchy.inversions node = scan := by
  simp [scanTable, List.getElem?_eq_some_iff]

theorem stepWalk?_walkState (hforest : graph.hierarchy.IsForest)
    (hlinked : graph.WellLinked) {taken waiting : List Nat} {parent : Nat}
    (hparent : parent < graph.size) :
    graph.stepWalk? (graph.walkState (taken ++ parent :: waiting) (parent :: waiting)) =
      some (graph.walkState ((taken ++ [parent]) ++ (waiting ++ graph.children parent))
        (waiting ++ graph.children parent)) := by
  have hscan : ((graph.scanTable (taken ++ parent :: waiting))[parent]?.join).getD 0 =
      graph.hierarchy.inversions parent := by
    rw [getElem?_scanTable_eq_some_iff.mpr ⟨hparent, by simp, rfl⟩]
    rfl
  have hchildren : ∀ child ∈ graph.children parent,
      childScan parent (graph.hierarchy.inversions parent) child =
        graph.hierarchy.inversions child := by
    intro child hchild
    exact (hforest.inversions_of_parent ((mem_children hlinked).mp hchild)).symm
  have hentered := foldl_enter (taken ++ parent :: waiting) waiting hchildren
  simp only [stepWalk?, walkState, hscan, Option.some.injEq] at hentered ⊢
  rw [hentered]
  simp

/-- A child has one parent only, and this one has not been taken before. -/
theorem WalkInvariant.notMem_of_mem_children (hlinked : graph.WellLinked)
    {taken waiting : List Nat} {parent child : Nat}
    (hinvariant : graph.WalkInvariant taken (parent :: waiting))
    (hchild : child ∈ graph.children parent) : child ∉ taken ++ parent :: waiting := by
  intro hentered
  have htaken := ((hinvariant.mem_iff child).mp hentered).2 parent
    ((mem_children hlinked).mp hchild)
  exact (List.nodup_append.mp hinvariant.nodup).2.2 parent htaken parent
    List.mem_cons_self rfl

theorem WalkInvariant.step (hlinked : graph.WellLinked) {taken waiting : List Nat}
    {parent : Nat} (hinvariant : graph.WalkInvariant taken (parent :: waiting)) :
    graph.WalkInvariant (taken ++ [parent]) (waiting ++ graph.children parent) where
  nodup := by
    have hfresh : ∀ entered ∈ taken ++ parent :: waiting,
        ∀ child ∈ graph.children parent, entered ≠ child := by
      rintro entered hentered child hchild rfl
      exact hinvariant.notMem_of_mem_children hlinked hchild hentered
    have hchildren := hlinked.nodup_children parent
    simpa using List.nodup_append.mpr ⟨hinvariant.nodup, hchildren, hfresh⟩
  mem_iff := by
    intro node
    have hentered := hinvariant.mem_iff node
    have hchild : node ∈ graph.children parent ↔ graph.parent? node = some parent :=
      mem_children hlinked
    have hsplit : node ∈ (taken ++ [parent]) ++ (waiting ++ graph.children parent) ↔
        node ∈ taken ++ parent :: waiting ∨ node ∈ graph.children parent := by
      simp only [List.mem_append, List.mem_cons, List.not_mem_nil, or_false]
      tauto
    rw [hsplit, hentered, hchild]
    constructor
    · rintro (⟨hnode, hparents⟩ | hparent)
      · exact ⟨hnode, fun other hother => List.mem_append_left _ (hparents other hother)⟩
      · refine ⟨hlinked.bounded.child_lt hparent, fun other hother => ?_⟩
        rw [hparent, Option.some.injEq] at hother
        exact List.mem_append_right _ (List.mem_singleton.mpr hother.symm)
    · rintro ⟨hnode, hparents⟩
      cases hparent : graph.parent? node with
      | none => exact .inl ⟨hnode, by simp⟩
      | some other =>
          rcases List.mem_append.mp (hparents other hparent) with htaken | hlast
          · left
            refine ⟨hnode, fun another hanother => ?_⟩
            exact Option.some.inj hanother ▸ htaken
          · right
            rw [List.mem_singleton.mp hlast]

theorem WalkInvariant.length_taken (hforest : graph.hierarchy.IsForest)
    {taken : List Nat} (hinvariant : graph.WalkInvariant taken []) :
    taken.length = graph.size := by
  have hnodup := hinvariant.nodup
  have hmem := hinvariant.mem_iff
  simp only [List.append_nil] at hnodup hmem
  have hall : ∀ node, node ∈ taken ↔ node ∈ List.range graph.size := by
    intro node
    rw [List.mem_range]
    refine ⟨fun htaken => ((hmem node).mp htaken).1, fun hnode => ?_⟩
    rcases hforest.rooted node hnode with ⟨chain, hchain⟩
    induction hchain with
    | root hparent =>
        refine (hmem _).mpr ⟨hnode, fun other hother => ?_⟩
        have hparent : graph.parent? _ = none := hparent
        rw [hparent] at hother
        contradiction
    | child hparent _ ih =>
        refine (hmem _).mpr ⟨hnode, fun other hother => ?_⟩
        have heq := Option.some.inj (hother.symm.trans hparent)
        exact heq ▸ ih (hforest.parent_lt hparent)
  have hperm := (List.perm_ext_iff_of_nodup hnodup List.nodup_range).mpr hall
  rw [hperm.length_eq, List.length_range]

theorem runWalk_of_stepWalk?_eq_none {walk : Walk} (hend : graph.stepWalk? walk = none)
    (steps : Nat) : graph.runWalk steps walk = walk := by
  cases steps <;> simp [runWalk, hend]

theorem runWalk_of_stepWalk?_eq_some {walk next : Walk}
    (hstep : graph.stepWalk? walk = some next) (steps : Nat) :
    graph.runWalk (steps + 1) walk = graph.runWalk steps next := by
  simp [runWalk, hstep]

theorem runWalk_succ (steps : Nat) (walk : Walk) :
    graph.runWalk (steps + 1) walk =
      (graph.stepWalk? (graph.runWalk steps walk)).getD (graph.runWalk steps walk) := by
  induction steps generalizing walk with
  | zero => cases hstep : graph.stepWalk? walk <;> simp [runWalk, hstep]
  | succ steps ih =>
      cases hstep : graph.stepWalk? walk with
      | none => simp [runWalk_of_stepWalk?_eq_none hstep, hstep]
      | some next =>
          rw [runWalk_of_stepWalk?_eq_some hstep, runWalk_of_stepWalk?_eq_some hstep, ih]

/-- Where the walk stands after as many steps as given. -/
structure WalksTo (graph : InheritanceGraph) (steps : Nat) (taken waiting : List Nat) :
    Prop where
  invariant : graph.WalkInvariant taken waiting
  length_taken : taken.length = steps
  state_eq : graph.runWalk steps graph.startWalk = graph.walkState (taken ++ waiting) waiting

theorem walksTo_start : graph.WalksTo 0 [] graph.roots where
  invariant := walkInvariant_start
  length_taken := rfl
  state_eq := startWalk_eq

theorem WalksTo.lt_size {steps : Nat} {taken waiting : List Nat}
    (hwalks : graph.WalksTo steps taken waiting) {node : Nat} (hnode : node ∈ waiting) :
    node < graph.size :=
  ((hwalks.invariant.mem_iff node).mp (List.mem_append_right _ hnode)).1

theorem WalksTo.stepWalk?_eq (hforest : graph.hierarchy.IsForest) (hlinked : graph.WellLinked)
    {steps parent : Nat} {taken waiting : List Nat}
    (hwalks : graph.WalksTo steps taken (parent :: waiting)) :
    graph.stepWalk? (graph.runWalk steps graph.startWalk) =
      some (graph.walkState ((taken ++ [parent]) ++ (waiting ++ graph.children parent))
        (waiting ++ graph.children parent)) := by
  rw [hwalks.state_eq]
  exact stepWalk?_walkState hforest hlinked (hwalks.lt_size List.mem_cons_self)

theorem WalksTo.step (hforest : graph.hierarchy.IsForest) (hlinked : graph.WellLinked)
    {steps parent : Nat} {taken waiting : List Nat}
    (hwalks : graph.WalksTo steps taken (parent :: waiting)) :
    graph.WalksTo (steps + 1) (taken ++ [parent]) (waiting ++ graph.children parent) where
  invariant := hwalks.invariant.step hlinked
  length_taken := by rw [List.length_append, hwalks.length_taken, List.length_singleton]
  state_eq := by
    rw [runWalk_succ, hwalks.stepWalk?_eq hforest hlinked]
    rfl

/-- A node waits as long as there are nodes that are not taken. -/
theorem WalksTo.exists_waiting (hforest : graph.hierarchy.IsForest) {steps : Nat}
    {taken waiting : List Nat} (hwalks : graph.WalksTo steps taken waiting)
    (hsteps : steps < graph.size) : ∃ parent rest, waiting = parent :: rest := by
  cases waiting with
  | nil =>
      have hall := hwalks.invariant.length_taken hforest
      have hlength := hwalks.length_taken
      omega
  | cons parent rest => exact ⟨parent, rest, rfl⟩

theorem exists_walksTo (hforest : graph.hierarchy.IsForest) (hlinked : graph.WellLinked)
    {steps : Nat} (hsteps : steps ≤ graph.size) :
    ∃ taken waiting, graph.WalksTo steps taken waiting := by
  induction steps with
  | zero => exact ⟨[], graph.roots, walksTo_start⟩
  | succ steps ih =>
      rcases ih (by omega) with ⟨taken, waiting, hwalks⟩
      rcases hwalks.exists_waiting hforest hsteps with ⟨parent, rest, rfl⟩
      exact ⟨_, _, hwalks.step hforest hlinked⟩

theorem exists_walksTo_cons (hforest : graph.hierarchy.IsForest) (hlinked : graph.WellLinked)
    {steps : Nat} (hsteps : steps < graph.size) :
    ∃ taken parent waiting, graph.WalksTo steps taken (parent :: waiting) := by
  rcases exists_walksTo hforest hlinked (Nat.le_of_lt hsteps) with ⟨taken, waiting, hwalks⟩
  rcases hwalks.exists_waiting hforest hsteps with ⟨parent, rest, rfl⟩
  exact ⟨taken, parent, rest, hwalks⟩

/-- As many steps as there are nodes take all of them, and none is left waiting. -/
theorem WalksTo.perm_of_size {taken waiting : List Nat}
    (hwalks : graph.WalksTo graph.size taken waiting) :
    taken.Perm (List.range graph.size) ∧ waiting = [] := by
  have hnodup := hwalks.invariant.nodup
  have hsubset : taken ++ waiting ⊆ List.range graph.size := fun node hnode =>
    List.mem_range.mpr ((hwalks.invariant.mem_iff node).mp hnode).1
  have hle := hnodup.length_le_of_subset hsubset
  rw [List.length_append, hwalks.length_taken, List.length_range] at hle
  have hnone : waiting = [] := List.eq_nil_of_length_eq_zero (by omega)
  subst hnone
  rw [List.append_nil] at hnodup hsubset
  have hlength : (List.range graph.size).length ≤ taken.length :=
    Nat.le_of_eq (List.length_range.trans hwalks.length_taken.symm)
  exact ⟨(hnodup.subperm hsubset).perm_of_length_le hlength, rfl⟩

theorem scans_runWalk (hforest : graph.hierarchy.IsForest) (hlinked : graph.WellLinked) :
    (graph.runWalk graph.size graph.startWalk).scans =
      (List.range graph.size).map fun node => some (graph.hierarchy.inversions node) := by
  rcases exists_walksTo hforest hlinked (Nat.le_refl graph.size) with ⟨taken, waiting, hwalks⟩
  rw [hwalks.state_eq]
  refine List.map_congr_left fun node hnode => ?_
  rw [if_pos (List.mem_append_left _ (hwalks.perm_of_size.1.mem_iff.mpr hnode))]

theorem scanKeys_eq {scan : Nat → Nat} (size : Nat) :
    graph.scanKeys ((List.range size).map fun node => some (scan node)) =
      .ok ((List.range size).map fun node => (scan node, node)) := by
  have hentries : ((List.range size).map fun node => some (scan node)).zipIdx =
      (List.range size).map fun node => (some (scan node), node) := by
    apply List.ext_getElem <;> simp
  rw [scanKeys, hentries, List.mapM_map]
  exact List.mapM_pure

/-- Sorting the noted scans arranges the nodes of a forest by their inversions. -/
theorem arrangeByQueue_eq (hforest : graph.hierarchy.IsForest)
    (hlinked : graph.WellLinked) :
    graph.arrangeByQueue =
      .ok { nodes := graph.hierarchy.arranged, passes := graph.hierarchy.passes } := by
  have hsorted : ((List.range graph.size).map fun node =>
        (graph.hierarchy.inversions node, node)).mergeSort keyLe =
      graph.hierarchy.arranged.map fun node => (graph.hierarchy.inversions node, node) := by
    rw [arranged, List.map_mergeSort (s := keyLe)]
    · rfl
    · intro _ _ _ _
      rfl
  unfold arrangeByQueue
  simp only [scans_runWalk hforest hlinked, scanKeys_eq]
  change Except.ok _ = Except.ok _
  rw [hsorted]
  simp [passes, Function.comp_def]

end InheritanceGraph

end ErrorTaxonomy
