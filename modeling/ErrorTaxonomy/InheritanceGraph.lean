import ErrorTaxonomy.Validation

/-!
# The inheritance graph

The pending errors are the nodes, numbered in the order of encounter; each has
at most one parent.  An index finds the number of a name, and the name of a number
by its place in the index.  Parents are linked first, so a name that no error
carries is reported before any cycle.  Then every chain of parents is followed once,
with a mark on each node that keeps a chain from being followed twice.
-/

namespace ErrorTaxonomy

/-- Names in the order in which they were first met, each with the number it was met
with last. -/
structure NameIndex where
  entries : List (String × Nat)
  deriving DecidableEq

namespace NameIndex

/-- A new name goes to the end; a name that is there keeps its place and takes the new
number. -/
def insertEntry (name : String) (node : Nat) :
    List (String × Nat) → List (String × Nat)
  | [] => [(name, node)]
  | (other, number) :: rest =>
      if other = name then (name, node) :: rest
      else (other, number) :: insertEntry name node rest

def insert (index : NameIndex) (name : String) (node : Nat) : NameIndex where
  entries := insertEntry name node index.entries

/-- The names of a list, each with its position. -/
def ofNames (names : List String) : NameIndex :=
  names.zipIdx.foldl (fun index entry => index.insert entry.1 entry.2) { entries := [] }

/-- The number of a name. -/
def node? (index : NameIndex) (name : String) : Option Nat :=
  (index.entries.find? fun entry => entry.1 = name).map Prod.snd

/-- The name in the given place. -/
def name? (index : NameIndex) (place : Nat) : Option String :=
  index.entries[place]?.map Prod.fst

end NameIndex

/-- Parent and children of every node, by number. -/
structure InheritanceLinks where
  parents : List (Option Nat)
  children : List (List Nat)
  deriving DecidableEq

namespace InheritanceLinks

def unlinked (size : Nat) : InheritanceLinks where
  parents := List.replicate size none
  children := List.replicate size []

def link (links : InheritanceLinks) (child parent : Nat) : InheritanceLinks where
  parents := links.parents.set child (some parent)
  children := links.children.modify parent (· ++ [child])

end InheritanceLinks

structure InheritanceGraph where
  names : NameIndex
  links : InheritanceLinks
  deriving DecidableEq

def linkParents (names : NameIndex) (child : Nat) (links : InheritanceLinks) :
    List PendingError → Except CompileError InheritanceLinks
  | [] => .ok links
  | pending :: rest =>
      match pending.parent with
      | none => linkParents names (child + 1) links rest
      | some parentName =>
          match names.node? parentName with
          | none => .error (.unknownParent pending.name parentName)
          | some parent =>
              linkParents names (child + 1) (links.link child parent) rest

namespace InheritanceGraph

def size (graph : InheritanceGraph) : Nat :=
  graph.links.parents.length

/-- Nodes are numbered as the names are placed, which is so where no name is repeated. -/
def name (graph : InheritanceGraph) (node : Nat) : String :=
  (graph.names.name? node).getD ""

def parent? (graph : InheritanceGraph) (node : Nat) : Option Nat :=
  graph.links.parents[node]?.join

/-- The children of a node in the order of encounter. -/
def children (graph : InheritanceGraph) (node : Nat) : List Nat :=
  graph.links.children[node]?.getD []

/-- The nodes without a parent in the order of encounter. -/
def roots (graph : InheritanceGraph) : List Nat :=
  (List.range graph.size).filter fun node => (graph.parent? node).isNone

def hasInheritance (graph : InheritanceGraph) : Bool :=
  graph.links.parents.any Option.isSome

inductive Mark where
  | unvisited
  | onPath
  | done
  deriving DecidableEq

theorem count_unvisited_set_lt {marks : List Mark} {node : Nat} {mark : Mark}
    (hnode : marks[node]? = some .unvisited) (hmark : mark ≠ .unvisited) :
    (marks.set node mark).count .unvisited < marks.count .unvisited := by
  induction marks generalizing node with
  | nil => simp at hnode
  | cons first rest ih =>
      cases node with
      | zero =>
          simp only [List.getElem?_cons_zero, Option.some.injEq] at hnode
          subst hnode
          simp [hmark]
      | succ node =>
          simp only [List.getElem?_cons_succ] at hnode
          simp only [List.set_cons_succ, List.count_cons]
          have := ih hnode
          omega

/-- The names of the cycle that closes at a node: the path from the place where
the node stands on it, and the node once more. -/
def cycleNames (graph : InheritanceGraph) (path : List Nat) (node : Nat) :
    List String :=
  ((path.drop ((path.idxOf? node).getD 0)).map graph.name) ++ [graph.name node]

/-- Follows the parents of a node until the chain ends or meets a node that is
done; a node of the path itself closes a cycle. -/
def follow (graph : InheritanceGraph) (marks : List Mark) (path : List Nat) :
    Option Nat → Except CompileError (List Mark × List Nat)
  | none => .ok (marks, path)
  | some node =>
      match _hmark : marks[node]? with
      | some .unvisited =>
          graph.follow (marks.set node .onPath) (path ++ [node])
            (graph.parent? node)
      | some .onPath => .error (.inheritanceCycle (graph.cycleNames path node))
      | some .done => .ok (marks, path)
      | none => .ok (marks, path)
  termination_by marks.count .unvisited
  decreasing_by exact count_unvisited_set_lt _hmark (by decide)

/-- Follows the chain of one node and marks its path as done. -/
def followFrom (graph : InheritanceGraph) (marks : List Mark) (start : Nat) :
    Except CompileError (List Mark) := do
  let (marks, path) ← graph.follow marks [] (some start)
  pure (path.foldl (fun marks node => marks.set node .done) marks)

/-- Fails at the first chain, by the number of its start, that meets itself. -/
def checkAcyclic (graph : InheritanceGraph) : Except CompileError Unit := do
  let _ ← (List.range graph.size).foldlM graph.followFrom
    (List.replicate graph.size .unvisited)
  pure ()

def build (pending : List PendingError) : Except CompileError InheritanceGraph := do
  let names := NameIndex.ofNames (pending.map PendingError.name)
  let links ← linkParents names 0 (.unlinked pending.length) pending
  let graph : InheritanceGraph := { names, links }
  graph.checkAcyclic
  pure graph

end InheritanceGraph

end ErrorTaxonomy
