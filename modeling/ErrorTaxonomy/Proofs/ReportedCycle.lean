import ErrorTaxonomy.Proofs.GraphConstruction

/-!
# The reported cycle

Where the parents of all errors are declared, their graph is refused exactly if
some error is its own ancestor.  The report then runs once round a cycle.  It
begins with the first error on a cycle that is met on the way up from the earliest
error whose chain of parents never ends.  What is met before only leads into the
cycle and is left out.

A node has one parent, so the way up from it is one walk.  This is why a node of
a cycle is met again from everything above it, and why the loop of the walk holds
all nodes on a cycle that are met at all.
-/

namespace ErrorTaxonomy

namespace Hierarchy

variable {hierarchy : Hierarchy} {tail loop : List Nat} {first node : Nat}

theorem Inherits.unique {parent other : Nat} (hparent : hierarchy.Inherits node parent)
    (hother : hierarchy.Inherits node other) : parent = other :=
  Option.some.inj (hparent.symm.trans hother)

theorem reaches_back {other : Nat}
    (hround : Relation.TransGen hierarchy.Inherits node node)
    (hreaches : Relation.ReflTransGen hierarchy.Inherits node other) :
    Relation.ReflTransGen hierarchy.Inherits other node := by
  induction hreaches with
  | refl => exact .refl
  | tail _ hparent ih =>
      have hback := Relation.TransGen.trans_right ih hround
      rcases Relation.TransGen.head'_iff.mp hback with ⟨next, hnext, hrest⟩
      rwa [hparent.unique hnext]

/-- A walk along parents leads from its first node to each of its nodes and on
to its last. -/
theorem reaches_of_mem_isChain {nodes : List Nat} {start last : Nat}
    (hwalk : nodes.IsChain hierarchy.Inherits) (hstart : nodes.head? = some start)
    (hlast : nodes.getLast? = some last) (hmem : node ∈ nodes) :
    Relation.ReflTransGen hierarchy.Inherits start node ∧
      Relation.ReflTransGen hierarchy.Inherits node last := by
  rcases List.append_of_mem hmem with ⟨before, after, rfl⟩
  constructor
  · rw [List.append_cons] at hwalk
    apply reaches_of_isChain hwalk.left_of_append
    · simpa [List.head?_append] using hstart
    · simp
  · apply reaches_of_isChain hwalk.right_of_append
    · rfl
    · simpa [List.getLast?_append] using hlast

theorem exists_parent_mem {nodes : List Nat} {last : Nat}
    (hwalk : (nodes ++ [last]).IsChain hierarchy.Inherits) (hnode : node ∈ nodes) :
    ∃ parent ∈ nodes ++ [last], hierarchy.Inherits node parent := by
  rcases List.append_of_mem hnode with ⟨before, after, rfl⟩
  rw [List.append_assoc, List.cons_append] at hwalk
  have hrest := hwalk.right_of_append
  cases after with
  | nil => exact ⟨last, by simp, by simpa using hrest⟩
  | cons next after =>
      rw [List.cons_append, List.isChain_cons_cons] at hrest
      exact ⟨next, by simp, hrest.1⟩

namespace FirstCycle

/-- The last node of the round is its first node again. -/
theorem mem_loop_of_mem_round (hcycle : hierarchy.FirstCycle tail loop first)
    (hnode : node ∈ loop ++ [first]) : node ∈ loop := by
  rcases List.mem_append.mp hnode with hloop | hlast
  · exact hloop
  · rw [List.mem_singleton.mp hlast]
    exact hcycle.first_mem_loop

theorem lt_size (hcycle : hierarchy.FirstCycle tail loop first)
    (hbounded : hierarchy.Bounded) (hnode : node ∈ tail ++ loop ++ [first]) :
    node < hierarchy.size := by
  have hmem : node ∈ tail ++ loop := by
    rw [List.append_assoc] at hnode
    rcases List.mem_append.mp hnode with htail | hround
    · exact List.mem_append_left loop htail
    · exact List.mem_append_right tail (hcycle.mem_loop_of_mem_round hround)
  rcases exists_parent_mem hcycle.walk hmem with ⟨parent, -, hparent⟩
  exact hbounded.child_lt hparent

theorem parent_mem_loop (hcycle : hierarchy.FirstCycle tail loop first) {parent : Nat}
    (hnode : node ∈ loop) (hparent : hierarchy.Inherits node parent) : parent ∈ loop := by
  rcases exists_parent_mem hcycle.round_isChain hnode with ⟨next, hnext, hnextParent⟩
  rw [hparent.unique hnextParent]
  exact hcycle.mem_loop_of_mem_round hnext

theorem mem_loop_of_reaches (hcycle : hierarchy.FirstCycle tail loop first)
    (hreaches : Relation.ReflTransGen hierarchy.Inherits first node) : node ∈ loop := by
  induction hreaches with
  | refl => exact hcycle.first_mem_loop
  | tail _ hparent ih => exact hcycle.parent_mem_loop ih hparent

/-- The loop holds exactly the nodes on a cycle that are met from the start. -/
theorem mem_loop_iff (hcycle : hierarchy.FirstCycle tail loop first) {start : Nat}
    (hstart : (tail ++ loop ++ [first]).head? = some start) :
    node ∈ loop ↔ Relation.TransGen hierarchy.Inherits node node ∧
      Relation.ReflTransGen hierarchy.Inherits start node := by
  have hfirst : Relation.ReflTransGen hierarchy.Inherits start first :=
    reaches_of_isChain hcycle.walk hstart List.getLast?_concat
  constructor
  · intro hnode
    have hhead : (loop ++ [first]).head? = some first := by
      rw [List.head?_append, hcycle.loop_head, Option.some_or]
    have hround := reaches_of_mem_isChain hcycle.round_isChain hhead List.getLast?_concat
      (List.mem_append_left [first] hnode)
    constructor
    · exact (Relation.TransGen.trans_right hround.2 hcycle.cyclic).trans_left hround.1
    · exact hfirst.trans hround.1
  · intro hnode
    apply hcycle.mem_loop_of_reaches
    -- The way up from the start meets both nodes, in one order or the other.
    rcases Relation.ReflTransGen.total_of_right_unique
        (fun _ _ _ hparent hother => hparent.unique hother) hnode.2 hfirst with hlater | hearlier
    · exact reaches_back hnode.1 hlater
    · exact hearlier

end FirstCycle

/-! ## Chains of names -/

variable {entries : List NamedLink} {name : String}

/-- Going up from a name ends at an entry without a parent. -/
def ChainEnds (entries : List NamedLink) (name : String) : Prop :=
  ∃ root, Relation.ReflTransGen (InheritsName entries) name root ∧ (root, none) ∈ entries

def IsOwnAncestor (entries : List NamedLink) (name : String) : Prop :=
  Relation.TransGen (InheritsName entries) name name

/-- The names that are reported of a cycle: from the first error on a cycle above
the start once round, and this error again. -/
structure ReportedCycle (entries : List NamedLink) (start : String) (cycle : List String) :
    Prop where
  closed : ∃ first rest, cycle = first :: (rest ++ [first])
  distinct : cycle.dropLast.Nodup
  parents : cycle.IsChain (InheritsName entries)
  start_endless : ¬ ChainEnds entries start
  start_earliest : ∃ before parent after, entries = before ++ (start, parent) :: after ∧
    ∀ earlier ∈ before, ChainEnds entries earlier.1
  first_met : ∃ tail, (tail ++ cycle).head? = some start ∧
    (tail ++ cycle).IsChain (InheritsName entries) ∧
      ∀ other ∈ tail, ¬ IsOwnAncestor entries other
  listed_iff : ∀ other, other ∈ cycle ↔
    IsOwnAncestor entries other ∧ Relation.ReflTransGen (InheritsName entries) start other

theorem nameAt_eq (hnode : node < entries.length) :
    nameAt entries node = entries[node].1 := by
  simp [nameAt, hnode]

theorem nameAt_mem (hnode : node < entries.length) :
    nameAt entries node ∈ entries.map Prod.fst := by
  rw [nameAt_eq hnode]
  exact List.mem_map_of_mem (List.getElem_mem hnode)

theorem eq_take_append_drop (hnode : node < entries.length) :
    entries = entries.take node ++
      (nameAt entries node, entries[node].2) :: entries.drop (node + 1) := by
  rw [nameAt_eq hnode]
  change entries = entries.take node ++ entries[node] :: entries.drop (node + 1)
  rw [List.getElem_cons_drop, List.take_append_drop]

theorem nameAt_idxOf (hname : name ∈ entries.map Prod.fst) :
    nameAt entries ((entries.map Prod.fst).idxOf name) = name := by
  rw [nameAt, List.getElem?_idxOf hname]
  rfl

theorem idxOf_nameAt (hnames : (entries.map Prod.fst).Nodup) (hnode : node < entries.length) :
    (entries.map Prod.fst).idxOf (nameAt entries node) = node := by
  have hlt : node < (entries.map Prod.fst).length := by simpa using hnode
  rw [nameAt, List.getElem?_eq_getElem hlt, Option.getD_some]
  exact hnames.idxOf_getElem node hlt

theorem isChain_nameAt (hnames : (entries.map Prod.fst).Nodup) {nodes : List Nat}
    (hwalk : nodes.IsChain (named entries).Inherits) :
    (nodes.map (nameAt entries)).IsChain (InheritsName entries) := by
  rw [List.isChain_map]
  exact hwalk.imp fun _ _ hparent => inheritsName_of_named hnames hparent

theorem FirstCycle.nodup_names (hnames : (entries.map Prod.fst).Nodup)
    (hcycle : (named entries).FirstCycle tail loop first) :
    (loop.map (nameAt entries)).Nodup := by
  have hlt : ∀ node ∈ loop, node < entries.length := by
    intro node hnode
    apply hcycle.lt_size (named_bounded entries)
    simp [hnode]
  apply List.Nodup.map_on
  · intro node hnode other hother heq
    rw [← idxOf_nameAt hnames (hlt node hnode), heq, idxOf_nameAt hnames (hlt other hother)]
  · exact hcycle.nodup.of_append_right

theorem isOwnAncestor_nameAt (hnames : (entries.map Prod.fst).Nodup)
    (hround : Relation.TransGen (named entries).Inherits node node) :
    IsOwnAncestor entries (nameAt entries node) :=
  Relation.TransGen.lift (nameAt entries)
    (fun _ _ hparent => inheritsName_of_named hnames hparent) _ _ hround

theorem IsOwnAncestor.mem_names (hcyclic : IsOwnAncestor entries name) :
    name ∈ entries.map Prod.fst := by
  rcases Relation.TransGen.head'_iff.mp hcyclic with ⟨parent, hparent, -⟩
  exact List.mem_map.mpr ⟨_, hparent, rfl⟩

section Named

variable (hnames : (entries.map Prod.fst).Nodup) (hparents : ParentsNamed entries)

include hnames hparents

theorem reaches_idxOf_of_reaches {ancestor : String}
    (hreaches : Relation.ReflTransGen (InheritsName entries) name ancestor) :
    Relation.ReflTransGen (named entries).Inherits ((entries.map Prod.fst).idxOf name)
      ((entries.map Prod.fst).idxOf ancestor) :=
  hreaches.lift (entries.map Prod.fst).idxOf fun child parent hparent =>
    named_of_inheritsName hnames hparent (hparents child parent hparent)

theorem isOwnAncestor_iff (hname : name ∈ entries.map Prod.fst) :
    IsOwnAncestor entries name ↔
      Relation.TransGen (named entries).Inherits ((entries.map Prod.fst).idxOf name)
        ((entries.map Prod.fst).idxOf name) := by
  constructor
  · intro hcyclic
    exact Relation.TransGen.lift (entries.map Prod.fst).idxOf (fun child parent hparent =>
      named_of_inheritsName hnames hparent (hparents child parent hparent)) _ _ hcyclic
  · intro hcyclic
    have hround := isOwnAncestor_nameAt hnames hcyclic
    rwa [nameAt_idxOf hname] at hround

theorem chainEnds_of_rooted (hnode : node < entries.length)
    (hrooted : (named entries).Rooted node) : ChainEnds entries (nameAt entries node) := by
  rcases hrooted with ⟨chain, hchain⟩
  induction hchain with
  | @root node hroot =>
      refine ⟨nameAt entries node, .refl, ?_⟩
      have hentry : entries[node]? = some entries[node] := List.getElem?_eq_getElem hnode
      have hparent : entries[node].2 = none := by
        cases hparent : entries[node].2 with
        | none => rfl
        | some parent =>
            -- A declared parent would be a parent of the node.
            have hinherits : InheritsName entries entries[node].1 parent := by
              rw [InheritsName, ← hparent]
              exact List.getElem_mem hnode
            have hindex := List.isSome_idxOf?.mpr (hparents _ _ hinherits)
            simp [named, hentry, hparent] at hroot
            simp [hroot] at hindex
      rw [nameAt_eq hnode, ← hparent]
      exact List.getElem_mem hnode
  | @child node parent chain hparent _ ih =>
      rcases ih ((named_bounded entries).parent_lt hparent) with ⟨root, hreaches, hroot⟩
      exact ⟨root, .head (inheritsName_of_named hnames hparent) hreaches, hroot⟩

theorem rooted_of_chainEnds (hends : ChainEnds entries name) :
    (named entries).Rooted ((entries.map Prod.fst).idxOf name) := by
  rcases hends with ⟨root, hreaches, hroot⟩
  induction hreaches using Relation.ReflTransGen.head_induction_on with
  | refl =>
      apply Rooted.of_root
      rcases List.mem_iff_getElem?.mp hroot with ⟨node, hentry⟩
      have hname : (entries.map Prod.fst)[node]? = some root := by simp [hentry]
      have hindex : (entries.map Prod.fst).idxOf root = node := by
        rw [List.idxOf_eq_getD_idxOf?, (idxOf?_eq_some_iff_of_nodup hnames).mpr hname]
        rfl
      simp [named, hindex, hentry]
  | head hparent _ ih =>
      exact Rooted.of_parent
        (named_of_inheritsName hnames hparent (hparents _ _ hparent)) ih

theorem rooted_iff_chainEnds (hnode : node < entries.length) :
    (named entries).Rooted node ↔ ChainEnds entries (nameAt entries node) := by
  constructor
  · exact chainEnds_of_rooted hnames hparents hnode
  · intro hends
    have hrooted := rooted_of_chainEnds hnames hparents hends
    rwa [idxOf_nameAt hnames hnode] at hrooted

theorem FirstCycle.not_isOwnAncestor (hcycle : (named entries).FirstCycle tail loop first)
    (hnode : node ∈ tail) : ¬ IsOwnAncestor entries (nameAt entries node) := by
  have hmem : node ∈ tail ++ loop ++ [first] := by simp [hnode]
  have hlt := hcycle.lt_size (named_bounded entries) hmem
  intro hcyclic
  rw [isOwnAncestor_iff hnames hparents (nameAt_mem hlt), idxOf_nameAt hnames hlt] at hcyclic
  rcases hcycle.exists_start with ⟨start, hstart, -⟩
  have hreaches := reaches_of_mem_isChain hcycle.walk hstart List.getLast?_concat hmem
  have hloop := (hcycle.mem_loop_iff hstart).mpr ⟨hcyclic, hreaches.1⟩
  exact (List.nodup_append.mp hcycle.nodup).2.2 node hnode node hloop rfl

theorem FirstCycle.mem_cycle_iff (hcycle : (named entries).FirstCycle tail loop first)
    {start : Nat} (hstart : (tail ++ loop ++ [first]).head? = some start) :
    name ∈ (loop ++ [first]).map (nameAt entries) ↔ IsOwnAncestor entries name ∧
      Relation.ReflTransGen (InheritsName entries) (nameAt entries start) name := by
  constructor
  · intro hlisted
    rcases List.mem_map.mp hlisted with ⟨node, hmem, rfl⟩
    have hmet := (hcycle.mem_loop_iff hstart).mp (hcycle.mem_loop_of_mem_round hmem)
    constructor
    · exact isOwnAncestor_nameAt hnames hmet.1
    · exact hmet.2.lift (nameAt entries) fun _ _ hparent => inheritsName_of_named hnames hparent
  · intro hmet
    have hname := hmet.1.mem_names
    have hcyclic := (isOwnAncestor_iff hnames hparents hname).mp hmet.1
    have hreaches := reaches_idxOf_of_reaches hnames hparents hmet.2
    have hlt := hcycle.lt_size (named_bounded entries) (List.mem_of_head? hstart)
    rw [idxOf_nameAt hnames hlt] at hreaches
    have hloop := (hcycle.mem_loop_iff hstart).mpr ⟨hcyclic, hreaches⟩
    exact List.mem_map.mpr ⟨_, List.mem_append_left [first] hloop, nameAt_idxOf hname⟩

theorem chainEnds_of_mem_take {start : Nat}
    (hearlier : ∀ node < start, (named entries).Rooted node) {earlier : NamedLink}
    (hmem : earlier ∈ entries.take start) : ChainEnds entries earlier.1 := by
  rcases List.mem_take_iff_getElem.mp hmem with ⟨node, hnode, rfl⟩
  rw [Nat.lt_min] at hnode
  rw [← nameAt_eq hnode.2]
  exact chainEnds_of_rooted hnames hparents hnode.2 (hearlier node hnode.1)

theorem FirstCycle.exists_reportedCycle (hcycle : (named entries).FirstCycle tail loop first) :
    ∃ start, ReportedCycle entries start ((loop ++ [first]).map (nameAt entries)) := by
  rcases hcycle.exists_start with ⟨start, hstart, hearlier, hendless⟩
  have hlt : start < entries.length :=
    hcycle.lt_size (named_bounded entries) (List.mem_of_head? hstart)
  have hjoin : tail.map (nameAt entries) ++ (loop ++ [first]).map (nameAt entries) =
      (tail ++ loop ++ [first]).map (nameAt entries) := by simp
  refine ⟨nameAt entries start, ?_⟩
  constructor
  · rcases List.head?_eq_some_iff.mp hcycle.loop_head with ⟨rest, rfl⟩
    exact ⟨nameAt entries first, rest.map (nameAt entries), by simp⟩
  · rw [List.map_append, List.map_singleton, List.dropLast_concat]
    exact hcycle.nodup_names hnames
  · exact isChain_nameAt hnames hcycle.round_isChain
  · rwa [← rooted_iff_chainEnds hnames hparents hlt]
  · refine ⟨entries.take start, entries[start].2, entries.drop (start + 1),
      eq_take_append_drop hlt, ?_⟩
    intro earlier hmem
    exact chainEnds_of_mem_take hnames hparents hearlier hmem
  · refine ⟨tail.map (nameAt entries), ?_, ?_, ?_⟩
    · rw [hjoin, List.head?_map, hstart]
      rfl
    · rw [hjoin]
      exact isChain_nameAt hnames hcycle.walk
    · intro other hother
      rcases List.mem_map.mp hother with ⟨node, hnode, rfl⟩
      exact hcycle.not_isOwnAncestor hnames hparents hnode
  · intro other
    exact hcycle.mem_cycle_iff hnames hparents hstart

end Named

end Hierarchy

open Hierarchy

variable {pending : List PendingError}

theorem exists_reportedCycle_of_build (hnames : (pending.map PendingError.name).Nodup)
    (hdeclared : ∀ error ∈ pending, error.ParentIn (pending.map PendingError.name))
    {error : CompileError} (hbuild : InheritanceGraph.build pending = .error error) :
    ∃ start cycle, error = .inheritanceCycle cycle ∧
      ReportedCycle (pending.map PendingError.link) start cycle := by
  have hrefuses := (InheritanceGraph.build_eq_error_iff hnames).mp hbuild
  have hparents := PendingError.parentsNamed_iff.mpr hdeclared
  rw [← PendingError.map_fst_link] at hnames
  cases hrefuses with
  | @unknownParent before after child parent hlinks _ hunknown =>
      refine absurd (hparents child parent ?_) hunknown
      rw [InheritsName, hlinks]
      simp
  | inheritanceCycle _ hcycle =>
      rcases hcycle.exists_reportedCycle hnames hparents with ⟨start, hreported⟩
      exact ⟨start, _, rfl, hreported⟩

theorem Hierarchy.ReportedCycle.exists_isOwnAncestor {entries : List NamedLink} {start : String}
    {cycle : List String} (hreported : ReportedCycle entries start cycle) :
    ∃ name, IsOwnAncestor entries name := by
  rcases hreported.closed with ⟨first, rest, hclosed⟩
  have hlisted : first ∈ cycle := by simp [hclosed]
  exact ⟨first, ((hreported.listed_iff first).mp hlisted).1⟩

/-- With distinct names and declared parents the graph is refused exactly if some
error is its own ancestor, and then the first cycle is reported. -/
theorem build_refuses_exactly_cycles (pending : List PendingError)
    (hnames : (pending.map PendingError.name).Nodup)
    (hdeclared : ∀ error ∈ pending, error.ParentIn (pending.map PendingError.name)) :
    ((∃ error, InheritanceGraph.build pending = .error error) ↔
        ∃ error ∈ pending, IsOwnAncestor (pending.map PendingError.link) error.name) ∧
      ∀ error, InheritanceGraph.build pending = .error error →
        ∃ start cycle, error = .inheritanceCycle cycle ∧
          ReportedCycle (pending.map PendingError.link) start cycle := by
  refine ⟨⟨?_, ?_⟩, fun error hbuild => exists_reportedCycle_of_build hnames hdeclared hbuild⟩
  · intro hfails
    rcases hfails with ⟨error, hbuild⟩
    rcases exists_reportedCycle_of_build hnames hdeclared hbuild with
      ⟨start, cycle, -, hreported⟩
    rcases hreported.exists_isOwnAncestor with ⟨name, hcyclic⟩
    have hname := hcyclic.mem_names
    rw [PendingError.map_fst_link] at hname
    rcases List.mem_map.mp hname with ⟨own, hmem, rfl⟩
    exact ⟨own, hmem, hcyclic⟩
  · intro hcyclic
    rcases hcyclic with ⟨own, -, hcyclic⟩
    cases hbuild : InheritanceGraph.build pending with
    | error error => exact ⟨error, rfl⟩
    | ok graph =>
        rcases (InheritanceGraph.build_eq_ok_iff hnames).mp hbuild with ⟨hparents, hforest, -⟩
        have hacyclic := (InheritanceGraph.isForest_iff_acyclic hnames hparents).mp hforest
        exact absurd hcyclic (hacyclic own.name)

/-- The chain of `Io` ends; `Quota` leads into a cycle that it is not part of. -/
def tailedLoop : List PendingError :=
  [{ name := "Io", interface := none, message := "", level := .error
     parent := none, entries := [] },
    { name := "Quota", interface := none, message := "", level := .notice
      parent := some "Full", entries := [] },
    { name := "Disk", interface := none, message := "", level := .error
      parent := some "Full", entries := [] },
    { name := "Full", interface := none, message := "", level := .error
      parent := some "Disk", entries := [] }]

theorem tailedLoop_reported :
    (tailedLoop.map PendingError.name).Nodup ∧
      (∀ error ∈ tailedLoop, error.ParentIn (tailedLoop.map PendingError.name)) ∧
      InheritanceGraph.build tailedLoop =
        .error (.inheritanceCycle ["Full", "Disk", "Full"]) ∧
      ∃ start cycle,
        CompileError.inheritanceCycle ["Full", "Disk", "Full"] = .inheritanceCycle cycle ∧
          ReportedCycle (tailedLoop.map PendingError.link) start cycle := by
  have hnames : (tailedLoop.map PendingError.name).Nodup := by decide +kernel
  have hdeclared : ∀ error ∈ tailedLoop,
      error.ParentIn (tailedLoop.map PendingError.name) := by
    simp [tailedLoop, PendingError.ParentIn]
  have hbuild : InheritanceGraph.build tailedLoop =
      .error (.inheritanceCycle ["Full", "Disk", "Full"]) := by decide +kernel
  exact ⟨hnames, hdeclared, hbuild,
    (build_refuses_exactly_cycles tailedLoop hnames hdeclared).2 _ hbuild⟩

end ErrorTaxonomy
