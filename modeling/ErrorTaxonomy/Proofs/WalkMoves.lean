import ErrorTaxonomy.Proofs.GraphRepresentation
import ErrorTaxonomy.Proofs.ScanCount

/-!
# The moves of the walk

The walk from the roots numbers a node with its scan, pushes it to the nodes that wait,
and pops the first of these.  Nothing in the walk keeps it from pushing a node again, or
from going on for ever.  In a forest it does neither: a node is pushed when its one parent
is popped, and a parent that is popped once more would have been pushed once more before.
So every node is numbered, pushed and popped once, in this order, and the walk ends when
as many nodes are popped as there are.

The moves are written down beside the states, and every state is what the moves so far
have left.
-/

namespace ErrorTaxonomy

namespace InheritanceGraph

namespace Walk

/-- What a walk does to its state, one thing at a time. -/
inductive Move where
  | number (node scan : Nat)
  | push (node : Nat)
  | pop (node : Nat)
  deriving DecidableEq

def apply (walk : Walk) : Move → Walk
  | .number node scan => walk.number node scan
  | .push node => walk.push node
  | .pop _ => { walk with waiting := walk.waiting.tail }

namespace Move

def numbered? : Move → Option (Nat × Nat)
  | number node scan => some (node, scan)
  | push _ => none
  | pop _ => none

def pushed? : Move → Option Nat
  | number _ _ => none
  | push node => some node
  | pop _ => none

def popped? : Move → Option Nat
  | number _ _ => none
  | push _ => none
  | pop node => some node

/-- The moves that enter nodes, one node after the other. -/
def entering (scanOf : Nat → Nat) (nodes : List Nat) : List Move :=
  nodes.flatMap fun node => [number node (scanOf node), push node]

/-- A node has been numbered when it is pushed, and is not numbered again. -/
def NumbersFirst (moves : List Move) : Prop :=
  ∀ before node after, moves = before ++ push node :: after →
    (∃ scan, number node scan ∈ before) ∧ ∀ scan, number node scan ∉ after

variable {moves more : List Move} {scanOf : Nat → Nat} {nodes : List Nat}

theorem entering_cons (node : Nat) :
    entering scanOf (node :: nodes) =
      number node (scanOf node) :: push node :: entering scanOf nodes := rfl

theorem filterMap_numbered?_entering :
    (entering scanOf nodes).filterMap numbered? = nodes.map fun node => (node, scanOf node) := by
  induction nodes with
  | nil => rfl
  | cons node rest ih =>
      simp only [entering_cons, List.filterMap_cons, numbered?, ih, List.map_cons]

theorem filterMap_pushed?_entering : (entering scanOf nodes).filterMap pushed? = nodes := by
  induction nodes with
  | nil => rfl
  | cons node rest ih => simp only [entering_cons, List.filterMap_cons, pushed?, ih]

theorem filterMap_popped?_entering : (entering scanOf nodes).filterMap popped? = [] := by
  induction nodes with
  | nil => rfl
  | cons node rest ih => simp only [entering_cons, List.filterMap_cons, popped?, ih]

theorem mem_of_number_mem_entering {node scan : Nat}
    (hmem : number node scan ∈ entering scanOf nodes) : node ∈ nodes := by
  rcases List.mem_flatMap.mp hmem with ⟨entered, hentered, hmove⟩
  simp only [List.mem_cons, number.injEq, reduceCtorEq, List.not_mem_nil, or_false] at hmove
  rwa [hmove.1]

theorem mem_filterMap_numbered? {node scan : Nat} :
    (node, scan) ∈ moves.filterMap numbered? ↔ number node scan ∈ moves := by
  rw [List.mem_filterMap]
  constructor
  · rintro ⟨move, hmem, hmove⟩
    cases move <;> simp_all [numbered?]
  · exact fun hmem => ⟨_, hmem, rfl⟩

theorem mem_filterMap_pushed? {node : Nat} :
    node ∈ moves.filterMap pushed? ↔ push node ∈ moves := by
  rw [List.mem_filterMap]
  constructor
  · rintro ⟨move, hmem, hmove⟩
    cases move <;> simp_all [pushed?]
  · exact fun hmem => ⟨_, hmem, rfl⟩

theorem NumbersFirst.append (hmoves : NumbersFirst moves) (hmore : NumbersFirst more)
    (hfresh : ∀ node scan, push node ∈ moves → number node scan ∉ more) :
    NumbersFirst (moves ++ more) := by
  intro before node after hsplit
  -- The push stands among the later moves or among the earlier ones.
  rcases List.append_eq_append_iff.mp hsplit with
    ⟨middle, rfl, hrest⟩ | ⟨middle, hbefore, hrest⟩
  · rcases hmore middle node after hrest with ⟨⟨scan, hscan⟩, hafter⟩
    exact ⟨⟨scan, List.mem_append_right _ hscan⟩, hafter⟩
  · cases middle with
    | nil =>
        rcases hmore [] node after hrest.symm with ⟨⟨_, hnever⟩, -⟩
        simp at hnever
    | cons move middle =>
        rcases List.cons.inj hrest with ⟨rfl, rfl⟩
        rcases hmoves before node middle hbefore with ⟨hnumber, hmiddle⟩
        have hpushed : push node ∈ moves := by simp [hbefore]
        refine ⟨hnumber, fun scan hmem => ?_⟩
        rcases List.mem_append.mp hmem with hmem | hmem
        · exact hmiddle scan hmem
        · exact hfresh node scan hpushed hmem

theorem numbersFirst_nil : NumbersFirst [] := by
  intro before node after hsplit
  simp at hsplit

theorem numbersFirst_pop (node : Nat) : NumbersFirst [pop node] := by
  intro before other after hsplit
  have hmem : push other ∈ [pop node] := by simp [hsplit]
  simp at hmem

theorem numbersFirst_entering_singleton (node : Nat) :
    NumbersFirst (entering scanOf [node]) := by
  intro before other after hsplit
  rcases List.cons_eq_append_iff.mp hsplit with ⟨-, hnever⟩ | ⟨rest, rfl, hrest⟩
  · simp at hnever
  · rcases List.cons_eq_append_iff.mp hrest with ⟨rfl, hlast⟩ | ⟨_, -, hnever⟩
    · simp only [List.cons.injEq, push.injEq] at hlast
      rcases hlast with ⟨rfl, rfl⟩
      simp
    · simp at hnever

theorem numbersFirst_entering (hnodup : nodes.Nodup) : NumbersFirst (entering scanOf nodes) := by
  induction nodes with
  | nil => exact numbersFirst_nil
  | cons node rest ih =>
      rcases List.nodup_cons.mp hnodup with ⟨hfirst, hrest⟩
      have hcons : entering scanOf (node :: rest) =
          entering scanOf [node] ++ entering scanOf rest := rfl
      rw [hcons]
      refine (numbersFirst_entering_singleton node).append (ih hrest) ?_
      intro other scan hpushed hnumbered
      rw [← mem_filterMap_pushed?, filterMap_pushed?_entering, List.mem_singleton] at hpushed
      exact hfirst (hpushed ▸ mem_of_number_mem_entering hnumbered)

end Move

end Walk

open Hierarchy Walk.Move

/-- The walk before any node is entered. -/
def unwalked (graph : InheritanceGraph) : Walk where
  scans := List.replicate graph.size none
  waiting := []

def stepMoves (graph : InheritanceGraph) (walk : Walk) : List Walk.Move :=
  match walk.waiting with
  | [] => []
  | parent :: _ =>
      .pop parent ::
        entering (childScan parent ((walk.scans[parent]?.join).getD 0))
          (graph.children parent)

/-- The moves of the start and of as many steps as given. -/
def movesWithin (graph : InheritanceGraph) : Nat → List Walk.Move
  | 0 => entering (fun _ => 0) graph.roots
  | steps + 1 =>
      graph.movesWithin steps ++ graph.stepMoves (graph.runWalk steps graph.startWalk)

/-- The moves of a walk that takes as many steps as there are nodes. -/
def moves (graph : InheritanceGraph) : List Walk.Move :=
  graph.movesWithin graph.size

variable {graph : InheritanceGraph} {taken waiting : List Nat}

theorem foldl_apply_entering (scan : Nat → Nat) (nodes : List Nat) (walk : Walk) :
    (entering scan nodes).foldl Walk.apply walk =
      nodes.foldl (fun walk node => walk.enter node (scan node)) walk := by
  rw [entering, List.foldl_flatMap]
  rfl

theorem foldl_apply_stepMoves (walk : Walk) :
    (graph.stepMoves walk).foldl Walk.apply walk = (graph.stepWalk? walk).getD walk := by
  cases hwaiting : walk.waiting with
  | nil => simp [stepMoves, stepWalk?, hwaiting]
  | cons parent rest =>
      simp only [stepMoves, stepWalk?, hwaiting, List.foldl_cons, foldl_apply_entering,
        Walk.apply, List.tail_cons, Option.getD_some]

/-- The moves replay the walk. -/
theorem foldl_apply_movesWithin (steps : Nat) :
    (graph.movesWithin steps).foldl Walk.apply graph.unwalked =
      graph.runWalk steps graph.startWalk := by
  induction steps with
  | zero => exact foldl_apply_entering _ _ _
  | succ steps ih =>
      rw [movesWithin, List.foldl_append, ih, foldl_apply_stepMoves, runWalk_succ]

/-- What the moves say of the nodes that are taken and of those that wait. -/
structure Records (graph : InheritanceGraph) (taken waiting : List Nat)
    (moves : List Walk.Move) : Prop where
  numbered : moves.filterMap numbered? =
    (taken ++ waiting).map fun node => (node, graph.hierarchy.inversions node)
  pushed : moves.filterMap pushed? = taken ++ waiting
  popped : moves.filterMap popped? = taken
  numbers_first : NumbersFirst moves

theorem records_start : graph.Records [] graph.roots (graph.movesWithin 0) where
  numbered := by
    rw [movesWithin, filterMap_numbered?_entering, List.nil_append]
    refine List.map_congr_left fun root hroot => ?_
    have hscan : graph.hierarchy.inversions root = 0 :=
      inversions_of_root (mem_roots.mp hroot).2
    rw [hscan]
  pushed := filterMap_pushed?_entering
  popped := filterMap_popped?_entering
  numbers_first := numbersFirst_entering (List.nodup_range.filter _)

theorem Records.step (hforest : graph.hierarchy.IsForest) (hlinked : graph.WellLinked)
    {steps parent : Nat} (hwalks : graph.WalksTo steps taken (parent :: waiting))
    (hrecords : graph.Records taken (parent :: waiting) (graph.movesWithin steps)) :
    graph.Records (taken ++ [parent]) (waiting ++ graph.children parent)
      (graph.movesWithin (steps + 1)) := by
  have hscan : (graph.scanTable (taken ++ parent :: waiting))[parent]? =
      some (some (graph.hierarchy.inversions parent)) :=
    getElem?_scanTable_eq_some_iff.mpr ⟨hwalks.lt_size List.mem_cons_self, by simp, rfl⟩
  have hmoves : graph.movesWithin (steps + 1) = graph.movesWithin steps ++ ([.pop parent] ++
      entering (childScan parent (graph.hierarchy.inversions parent))
        (graph.children parent)) := by
    rw [movesWithin, hwalks.state_eq]
    simp [stepMoves, walkState, hscan]
  rw [hmoves]
  constructor
  · have hchildren : (graph.children parent).map (fun child =>
          (child, childScan parent (graph.hierarchy.inversions parent) child)) =
        (graph.children parent).map fun child => (child, graph.hierarchy.inversions child) := by
      refine List.map_congr_left fun child hchild => ?_
      have hparent : graph.hierarchy.parent? child = some parent :=
        (mem_children hlinked).mp hchild
      rw [hforest.inversions_of_parent hparent]
    simp [hrecords.numbered, filterMap_numbered?_entering, List.filterMap_cons, hchildren,
      numbered?]
  · simp [hrecords.pushed, filterMap_pushed?_entering, List.filterMap_cons, pushed?]
  · simp [hrecords.popped, filterMap_popped?_entering, popped?]
  · refine hrecords.numbers_first.append ?_ ?_
    · refine (numbersFirst_pop parent).append
        (numbersFirst_entering (hlinked.nodup_children parent)) ?_
      simp
    · -- The children have not been entered before, so none of them is numbered again.
      intro node scan hpushed hnumbered
      rw [← mem_filterMap_pushed?, hrecords.pushed] at hpushed
      rw [List.singleton_append, List.mem_cons] at hnumbered
      have hchild := mem_of_number_mem_entering (hnumbered.resolve_left (by simp))
      exact hwalks.invariant.notMem_of_mem_children hlinked hchild hpushed

theorem exists_records (hforest : graph.hierarchy.IsForest) (hlinked : graph.WellLinked)
    {steps : Nat} (hsteps : steps ≤ graph.size) :
    ∃ taken waiting, graph.WalksTo steps taken waiting ∧
      graph.Records taken waiting (graph.movesWithin steps) := by
  induction steps with
  | zero => exact ⟨[], graph.roots, walksTo_start, records_start⟩
  | succ steps ih =>
      rcases ih (by omega) with ⟨taken, waiting, hwalks, hrecords⟩
      rcases hwalks.exists_waiting hforest hsteps with ⟨parent, rest, rfl⟩
      exact ⟨_, _, hwalks.step hforest hlinked, hrecords.step hforest hlinked hwalks⟩

theorem Records.number_lt (hforest : graph.hierarchy.IsForest) {steps node scan : Nat}
    {moves : List Walk.Move} (hwalks : graph.WalksTo steps taken waiting)
    (hrecords : graph.Records taken waiting moves) (hmem : number node scan ∈ moves) :
    scan < graph.size := by
  rw [← mem_filterMap_numbered?, hrecords.numbered] at hmem
  rcases List.mem_map.mp hmem with ⟨entered, hentered, heq⟩
  rw [← (Prod.mk.inj heq).2]
  exact hforest.inversions_lt_size ((hwalks.invariant.mem_iff entered).mp hentered).1

section Steps

variable (hforest : graph.hierarchy.IsForest) (hlinked : graph.WellLinked)
  {pops later node scan : Nat}

include hforest hlinked

theorem stepWalk?_runWalk (hpops : pops < graph.size) :
    graph.stepWalk? (graph.runWalk pops graph.startWalk) =
      some (graph.runWalk (pops + 1) graph.startWalk) := by
  rcases exists_walksTo_cons hforest hlinked hpops with ⟨taken, parent, waiting, hwalks⟩
  rw [hwalks.stepWalk?_eq hforest hlinked, (hwalks.step hforest hlinked).state_eq]

theorem exists_next_numbered (hpops : pops < graph.size) :
    ∃ parent scan, (graph.runWalk pops graph.startWalk).waiting.head? = some parent ∧
      (graph.runWalk pops graph.startWalk).scans[parent]? = some (some scan) := by
  rcases exists_walksTo_cons hforest hlinked hpops with ⟨taken, parent, waiting, hwalks⟩
  have hparent : parent < graph.size := hwalks.lt_size List.mem_cons_self
  rw [hwalks.state_eq]
  refine ⟨parent, graph.hierarchy.inversions parent, rfl, ?_⟩
  exact getElem?_scanTable_eq_some_iff.mpr ⟨hparent, by simp, rfl⟩

theorem scans_kept_succ (hpops : pops < graph.size)
    (hscan : (graph.runWalk pops graph.startWalk).scans[node]? = some (some scan)) :
    (graph.runWalk (pops + 1) graph.startWalk).scans[node]? = some (some scan) := by
  rcases exists_walksTo_cons hforest hlinked hpops with ⟨taken, parent, waiting, hwalks⟩
  rw [hwalks.state_eq] at hscan
  rw [(hwalks.step hforest hlinked).state_eq]
  rcases getElem?_scanTable_eq_some_iff.mp hscan with ⟨hnode, hmem, heq⟩
  refine getElem?_scanTable_eq_some_iff.mpr ⟨hnode, ?_, heq⟩
  simp only [List.mem_append, List.mem_cons, List.not_mem_nil, or_false] at hmem ⊢
  tauto

theorem scans_kept (hle : pops ≤ later) (hlater : later ≤ graph.size)
    (hscan : (graph.runWalk pops graph.startWalk).scans[node]? = some (some scan)) :
    (graph.runWalk later graph.startWalk).scans[node]? = some (some scan) := by
  induction later, hle using Nat.le_induction with
  | base => exact hscan
  | succ later _ ih => exact scans_kept_succ hforest hlinked hlater (ih (by omega))

end Steps

/-- The walk numbers, pushes and pops every node once, and ends when it has popped as many
nodes as there are. -/
structure WalksOnce (graph : InheritanceGraph) : Prop where
  replayed : ∀ pops, (graph.movesWithin pops).foldl Walk.apply graph.unwalked =
    graph.runWalk pops graph.startWalk
  goes_on : ∀ pops < graph.size, graph.stepWalk? (graph.runWalk pops graph.startWalk) =
    some (graph.runWalk (pops + 1) graph.startWalk)
  ends : graph.stepWalk? (graph.runWalk graph.size graph.startWalk) = none
  popped_once : (graph.moves.filterMap popped?).Perm (List.range graph.size)
  pushed_once : (graph.moves.filterMap pushed?).Perm (List.range graph.size)
  numbered_once :
    ((graph.moves.filterMap numbered?).map Prod.fst).Perm (List.range graph.size)
  numbers_first : NumbersFirst graph.moves
  number_lt : ∀ node scan, number node scan ∈ graph.moves → scan < graph.size
  next_numbered : ∀ pops < graph.size, ∃ parent scan,
    (graph.runWalk pops graph.startWalk).waiting.head? = some parent ∧
      (graph.runWalk pops graph.startWalk).scans[parent]? = some (some scan)
  kept : ∀ (pops later node scan : Nat), pops ≤ later → later ≤ graph.size →
    (graph.runWalk pops graph.startWalk).scans[node]? = some (some scan) →
      (graph.runWalk later graph.startWalk).scans[node]? = some (some scan)
  all_numbered : ∀ node < graph.size, ∃ scan < graph.size,
    (graph.runWalk graph.size graph.startWalk).scans[node]? = some (some scan)
  keyed : ∃ keys,
    graph.scanKeys (graph.runWalk graph.size graph.startWalk).scans = .ok keys

theorem walksOnce_of_forest (hforest : graph.hierarchy.IsForest)
    (hlinked : graph.WellLinked) : graph.WalksOnce := by
  rcases exists_records hforest hlinked (Nat.le_refl graph.size) with
    ⟨taken, waiting, hwalks, hrecords⟩
  rcases hwalks.perm_of_size with ⟨hperm, rfl⟩
  have hscans := scans_runWalk hforest hlinked
  constructor
  · exact foldl_apply_movesWithin
  · exact fun _ hpops => stepWalk?_runWalk hforest hlinked hpops
  · rw [hwalks.state_eq]
    rfl
  · rw [moves, hrecords.popped]
    exact hperm
  · rw [moves, hrecords.pushed, List.append_nil]
    exact hperm
  · rw [moves, hrecords.numbered, List.append_nil, List.map_map]
    simpa [Function.comp_def] using hperm
  · exact hrecords.numbers_first
  · exact fun _ _ hmem => hrecords.number_lt hforest hwalks hmem
  · exact fun _ hpops => exists_next_numbered hforest hlinked hpops
  · exact fun _ _ _ _ hle hlater => scans_kept hforest hlinked hle hlater
  · intro node hnode
    refine ⟨graph.hierarchy.inversions node, hforest.inversions_lt_size hnode, ?_⟩
    rw [hscans]
    simp [hnode]
  · rw [hscans]
    exact ⟨_, scanKeys_eq graph.size⟩

end InheritanceGraph

/-- Whatever names the errors of a graph carry, the walk over it enters every node once. -/
theorem walksOnce_of_build (pending : List PendingError) (graph : InheritanceGraph)
    (hbuild : InheritanceGraph.build pending = .ok graph) : graph.WalksOnce :=
  InheritanceGraph.walksOnce_of_forest (InheritanceGraph.isForest_of_build hbuild)
    (InheritanceGraph.wellLinked_of_build hbuild)

theorem siblingErrors_walksOnce :
    InheritanceGraph.build siblingErrors = .ok siblingGraph ∧ siblingGraph.WalksOnce := by
  have hbuild : InheritanceGraph.build siblingErrors = .ok siblingGraph := by
    decide +kernel
  exact ⟨hbuild, walksOnce_of_build siblingErrors siblingGraph hbuild⟩

open InheritanceGraph.Walk.Move in
example : siblingGraph.moves =
    [number 1 0, push 1, pop 1, number 0 1, push 0, number 3 0, push 3, pop 0, number 2 1,
      push 2, pop 3, pop 2] := by
  decide +kernel

end ErrorTaxonomy
