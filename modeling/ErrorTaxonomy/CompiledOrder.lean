import ErrorTaxonomy.InheritanceGraph
import ErrorTaxonomy.OrderingStrategy

/-!
# The compiled order

A taxonomy lists every parent before its children.  The order is that of a
repeated scan: the nodes are visited in the order of encounter, and a node is
placed once it has no parent or its parent is placed, in an earlier scan or
earlier in this one.  Scans repeat until every node is placed.

The multi-pass strategy scans literally.  The queue strategy walks the graph
once, roots first, and computes the scan in which each node would be placed: a
child belongs to the scan of its parent if it comes after it in the order of
encounter, and to the next scan otherwise.  Sorting by scan, and within a scan
by the order of encounter, gives the same list.
-/

namespace ErrorTaxonomy

/-- Nodes in compiled order, and the number of scans it takes to place them. -/
structure Arrangement where
  nodes : List Nat
  passes : Nat
  deriving DecidableEq

namespace InheritanceGraph

/-- The parents met from a node on, up to the first that repeats, or all of them if
the chain ends. -/
def chainUntilRepeat (graph : InheritanceGraph) :
    Nat → List Nat → Nat → List String
  | 0, path, node => graph.cycleNames path node
  | fuel + 1, path, node =>
      if node ∈ path then graph.cycleNames path node
      else
        match graph.parent? node with
        | none => (path ++ [node]).map graph.name
        | some parent => graph.chainUntilRepeat fuel (path ++ [node]) parent

/-- The error of a node that can never be placed: its chain of parents closes. -/
def cycleThrough (graph : InheritanceGraph) (node : Nat) : CompileError :=
  .inheritanceCycle (graph.chainUntilRepeat graph.size [] node)

/-- A node can be placed when it has no parent or after its parent. -/
def isReady (graph : InheritanceGraph) (placed : List Nat) (node : Nat) : Bool :=
  match graph.parent? node with
  | none => true
  | some parent => placed.contains parent

def place (graph : InheritanceGraph) (placed : List Nat) (node : Nat) : List Nat :=
  if placed.contains node then placed
  else if graph.isReady placed node then placed ++ [node]
  else placed

/-- One scan over all nodes in the order of encounter. -/
def scan (graph : InheritanceGraph) (placed : List Nat) : List Nat :=
  (List.range graph.size).foldl graph.place placed

theorem length_le_length_place (graph : InheritanceGraph) (placed : List Nat)
    (node : Nat) : placed.length ≤ (graph.place placed node).length := by
  unfold place
  split
  · exact Nat.le_refl _
  · split <;> simp

theorem length_le_length_foldl_place (graph : InheritanceGraph) (nodes : List Nat)
    (placed : List Nat) :
    placed.length ≤ (nodes.foldl graph.place placed).length := by
  induction nodes generalizing placed with
  | nil => simp
  | cons node rest ih =>
      exact Nat.le_trans (graph.length_le_length_place placed node) (ih _)

theorem length_le_length_scan (graph : InheritanceGraph) (placed : List Nat) :
    placed.length ≤ (graph.scan placed).length :=
  graph.length_le_length_foldl_place _ placed

/-- Scans until every node is placed; a scan that places none never will. -/
def scanRepeatedly (graph : InheritanceGraph) (placed : List Nat) (passes : Nat) :
    Except CompileError Arrangement :=
  if _hmissing : placed.length < graph.size then
    if _hstuck : (graph.scan placed).length = placed.length then
      let stuck := (List.range graph.size).find? fun node => !placed.contains node
      .error (graph.cycleThrough (stuck.getD 0))
    else graph.scanRepeatedly (graph.scan placed) (passes + 1)
  else .ok { nodes := placed, passes }
  termination_by graph.size - placed.length
  decreasing_by
    have := graph.length_le_length_scan placed
    omega

def arrangeByScanning (graph : InheritanceGraph) : Except CompileError Arrangement :=
  graph.scanRepeatedly [] 0

/-- The state of a walk from the roots: the scan known for each node so far,
and the nodes whose children have yet to be reached. -/
structure Walk where
  scans : List (Option Nat)
  waiting : List Nat
  deriving DecidableEq

namespace Walk

def number (walk : Walk) (node scan : Nat) : Walk :=
  { walk with scans := walk.scans.set node (some scan) }

def push (walk : Walk) (node : Nat) : Walk :=
  { walk with waiting := walk.waiting ++ [node] }

/-- A node waits with its scan already noted. -/
def enter (walk : Walk) (node scan : Nat) : Walk :=
  (walk.number node scan).push node

end Walk

def startWalk (graph : InheritanceGraph) : Walk :=
  graph.roots.foldl (fun walk root => walk.enter root 0)
    { scans := List.replicate graph.size none, waiting := [] }

/-- The scan of a child, given its parent and the scan of its parent. -/
def childScan (parent parentScan child : Nat) : Nat :=
  if child < parent then parentScan + 1 else parentScan

/-- Takes the first waiting node and enters its children. -/
def stepWalk? (graph : InheritanceGraph) (walk : Walk) : Option Walk :=
  match walk.waiting with
  | [] => none
  | parent :: waiting =>
      let parentScan := (walk.scans[parent]?.join).getD 0
      some
        ((graph.children parent).foldl
          (fun walk child => walk.enter child (childScan parent parentScan child))
          { walk with waiting })

/-- As many steps as given, or fewer if no node is left waiting. -/
def runWalk (graph : InheritanceGraph) : Nat → Walk → Walk
  | 0, walk => walk
  | steps + 1, walk =>
      match graph.stepWalk? walk with
      | none => walk
      | some next => graph.runWalk steps next

/-- Each node with its scan; a node that the walk never reached hangs on a cycle. -/
def scanKeys (graph : InheritanceGraph) (scans : List (Option Nat)) :
    Except CompileError (List (Nat × Nat)) :=
  scans.zipIdx.mapM fun entry =>
    match entry.1 with
    | some scan => .ok (scan, entry.2)
    | none => .error (graph.cycleThrough entry.2)

/-- Earlier scans first, and the order of encounter within a scan. -/
def keyLe (a b : Nat × Nat) : Bool :=
  a.1 < b.1 || (a.1 == b.1 && a.2 ≤ b.2)

def arrangeByQueue (graph : InheritanceGraph) : Except CompileError Arrangement := do
  let walk := graph.runWalk graph.size graph.startWalk
  let keys ← graph.scanKeys walk.scans
  let sorted := keys.mergeSort keyLe
  pure
    { nodes := sorted.map Prod.snd
      passes := (sorted.getLast?.map fun key => key.1 + 1).getD 0 }

def arrange (graph : InheritanceGraph) :
    OrderingStrategy → Except CompileError Arrangement
  | .queue => graph.arrangeByQueue
  | .multiPass => graph.arrangeByScanning

def arrangedMessage : OrderingStrategy → String
  | .queue => "Queue ordering finished"
  | .multiPass => "Multi-pass ordering finished"

/-- The nodes in compiled order.  Without any parent nothing has to be moved. -/
def order (graph : InheritanceGraph) (strategy : OrderingStrategy) :
    Traced CompileError (List Nat) :=
  if graph.hasInheritance then do
    let arrangement ← Traced.ofExcept (graph.arrange strategy)
    Traced.note
      { level := .debug
        component := "errtax::order"
        message := arrangedMessage strategy
        details := [("passes", toString arrangement.passes)] }
    pure arrangement.nodes
  else do
    Traced.note
      { level := .debug
        component := "errtax::order"
        message := "No inheritance, keeping encounter order"
        details := [("errors", toString graph.size)] }
    pure (List.range graph.size)

end InheritanceGraph

end ErrorTaxonomy
