import ErrorTaxonomy.Proofs.InheritanceLinks
import Mathlib.Data.List.Chain

/-!
# The search for inheritance cycles

Every chain of parents is followed once, and nodes that were followed before
end it.  The search succeeds exactly on forests: a node that is done has a chain
that ends, and so has every node whose chain reaches it.  Where the search fails
it has followed the earliest node whose chain never ends, through a tail that
lies on no cycle and then once round the loop, and it reports the loop alone.
-/

namespace ErrorTaxonomy

namespace Hierarchy

variable {hierarchy : Hierarchy}

theorem Rooted.parent {node parent : Nat} (hrooted : hierarchy.Rooted node)
    (hparent : hierarchy.Inherits node parent) : hierarchy.Rooted parent := by
  rcases hrooted with ⟨chain, hchain⟩
  cases hchain with
  | root hroot =>
      rw [Inherits, hroot] at hparent
      contradiction
  | child hother hrest =>
      rw [Inherits, hother] at hparent
      exact Option.some.inj hparent ▸ ⟨_, hrest⟩

theorem Rooted.of_reaches {node ancestor : Nat} (hrooted : hierarchy.Rooted node)
    (hreaches : Relation.ReflTransGen hierarchy.Inherits node ancestor) :
    hierarchy.Rooted ancestor := by
  induction hreaches with
  | refl => exact hrooted
  | tail _ hparent ih => exact ih.parent hparent

theorem reaches_of_isChain {nodes : List Nat} {first last : Nat}
    (hwalk : nodes.IsChain hierarchy.Inherits) (hfirst : nodes.head? = some first)
    (hlast : nodes.getLast? = some last) :
    Relation.ReflTransGen hierarchy.Inherits first last := by
  have hne : nodes ≠ [] := by
    rintro rfl
    simp at hfirst
  have hreaches := List.relationReflTransGen_of_exists_isChain nodes hwalk hne
  rw [List.head?_eq_some_head hne, Option.some.injEq] at hfirst
  rw [List.getLast?_eq_some_getLast hne, Option.some.injEq] at hlast
  rwa [hfirst, hlast] at hreaches

/-- From the first node whose chain of parents never ends the parents run
through the tail and then round the loop, back to its first node. -/
structure FirstCycle (hierarchy : Hierarchy) (tail loop : List Nat) (first : Nat) :
    Prop where
  walk : (tail ++ loop ++ [first]).IsChain hierarchy.Inherits
  nodup : (tail ++ loop).Nodup
  loop_head : loop.head? = some first
  earliest : ∃ start,
    (tail ++ loop).head? = some start ∧ ∀ node < start, hierarchy.Rooted node

namespace FirstCycle

variable {tail loop : List Nat} {first : Nat}

theorem round_isChain (hcycle : hierarchy.FirstCycle tail loop first) :
    (loop ++ [first]).IsChain hierarchy.Inherits := by
  have hwalk := hcycle.walk
  rw [List.append_assoc] at hwalk
  exact hwalk.right_of_append

theorem cyclic (hcycle : hierarchy.FirstCycle tail loop first) :
    Relation.TransGen hierarchy.Inherits first first := by
  obtain ⟨rest, rfl⟩ : ∃ rest, loop = first :: rest :=
    List.head?_eq_some_iff.mp hcycle.loop_head
  have hround := hcycle.round_isChain
  rw [List.cons_append] at hround
  obtain ⟨second, more, hrest⟩ := List.exists_cons_of_ne_nil
    (List.append_ne_nil_of_right_ne_nil rest (List.cons_ne_nil first []))
  have hlast : (second :: more).getLast? = some first := by
    rw [← hrest]
    simp
  rw [hrest, List.isChain_cons_cons] at hround
  exact .head' hround.1 (reaches_of_isChain hround.2 rfl hlast)

theorem not_isForest (hbounded : hierarchy.Bounded)
    (hcycle : hierarchy.FirstCycle tail loop first) : ¬ hierarchy.IsForest := by
  intro hforest
  rcases Relation.TransGen.head'_iff.mp hcycle.cyclic with ⟨_, hparent, _⟩
  exact (hforest.rooted first (hbounded.child_lt hparent)).not_transGen_self hcycle.cyclic

end FirstCycle

end Hierarchy

namespace InheritanceGraph

variable {graph : InheritanceGraph} {settled marks : List Mark} {path : List Nat}

/-- Marks while a chain is followed: the path is marked as such, every node that
is done has a chain that ends, and nothing that was settled is lost. -/
structure Marked (graph : InheritanceGraph) (settled marks : List Mark)
    (path : List Nat) : Prop where
  length_eq : marks.length = graph.size
  onPath_iff : ∀ node : Nat, marks[node]? = some .onPath ↔ node ∈ path
  rooted_of_done : ∀ node : Nat, marks[node]? = some .done → graph.hierarchy.Rooted node
  kept : ∀ node : Nat, settled[node]? = some .done → marks[node]? = some .done

/-- The path has been followed from the start and goes on at the current node. -/
structure Following (graph : InheritanceGraph) (settled : List Mark) (start : Nat)
    (marks : List Mark) (path : List Nat) (current : Option Nat) : Prop
    extends graph.Marked settled marks path where
  current_lt : ∀ node, current = some node → node < graph.size
  nodup : path.Nodup
  walk : (path ++ current.toList).IsChain graph.hierarchy.Inherits
  head_eq : (path ++ current.toList).head? = some start
  rooted_of_current : (∀ node, current = some node → graph.hierarchy.Rooted node) →
    ∀ node ∈ path, graph.hierarchy.Rooted node

structure Followed (graph : InheritanceGraph) (settled : List Mark) (start : Nat)
    (marks : List Mark) (path : List Nat) : Prop
    extends graph.Marked settled marks path where
  rooted : ∀ node ∈ path, graph.hierarchy.Rooted node
  start_met : marks[start]? = some .done ∨ start ∈ path

theorem Following.start_met {start : Nat} {current : Option Nat}
    (hfollowing : graph.Following settled start marks path current)
    (hcurrent : ∀ node, current = some node → marks[node]? = some .done) :
    marks[start]? = some .done ∨ start ∈ path := by
  have hhead := hfollowing.head_eq
  cases path with
  | nil =>
      left
      apply hcurrent
      cases current with
      | none => simp at hhead
      | some node => simpa using hhead
  | cons first rest =>
      right
      simp only [List.cons_append, List.head?_cons, Option.some.injEq] at hhead
      simp [hhead]

theorem Following.followed {start : Nat} {current : Option Nat}
    (hfollowing : graph.Following settled start marks path current)
    (hcurrent : ∀ node, current = some node → marks[node]? = some .done) :
    graph.Followed settled start marks path where
  toMarked := hfollowing.toMarked
  rooted := hfollowing.rooted_of_current fun node hnode =>
    hfollowing.rooted_of_done node (hcurrent node hnode)
  start_met := hfollowing.start_met hcurrent

theorem Marked.enter (hmarked : graph.Marked settled marks path) {node : Nat}
    (hlt : node < graph.size) (hmark : marks[node]? = some .unvisited) :
    graph.Marked settled (marks.set node .onPath) (path ++ [node]) where
  length_eq := by rw [List.length_set, hmarked.length_eq]
  onPath_iff := by
    intro other
    by_cases heq : node = other
    · subst heq
      simp [hmarked.length_eq, hlt]
    · simp [heq, Ne.symm heq, hmarked.onPath_iff other]
  rooted_of_done := by
    intro other hdone
    by_cases heq : node = other
    · subst heq
      simp [hmarked.length_eq, hlt] at hdone
    · rw [List.getElem?_set_ne heq] at hdone
      exact hmarked.rooted_of_done other hdone
  kept := by
    intro other hdone
    have hkept := hmarked.kept other hdone
    have heq : node ≠ other := by
      rintro rfl
      rw [hmark] at hkept
      contradiction
    rwa [List.getElem?_set_ne heq]

theorem Following.step (hbounded : graph.hierarchy.Bounded) {start node : Nat}
    (hfollowing : graph.Following settled start marks path (some node))
    (hmark : marks[node]? = some .unvisited) :
    graph.Following settled start (marks.set node .onPath) (path ++ [node])
      (graph.parent? node) where
  toMarked := hfollowing.toMarked.enter (hfollowing.current_lt node rfl) hmark
  current_lt := by
    intro parent hparent
    exact hbounded.parent_lt hparent
  nodup := by
    have hfresh : node ∉ path := by
      intro hmem
      rw [(hfollowing.onPath_iff node).mpr hmem] at hmark
      contradiction
    exact List.nodup_append.mpr ⟨hfollowing.nodup, by simp, by
      intro other hmem _ hnode heq
      rw [List.mem_singleton.mp hnode] at heq
      exact hfresh (heq ▸ hmem)⟩
  walk := by
    have hwalk := hfollowing.walk
    cases hparent : graph.parent? node with
    | none => simpa using hwalk
    | some parent =>
        refine hwalk.append (List.isChain_singleton parent) ?_
        intro last hlast next hnext
        have hlast : node = last := by simpa using hlast
        have hnext : parent = next := by simpa using hnext
        subst hlast hnext
        exact hparent
  head_eq := by
    have hhead := hfollowing.head_eq
    rw [Option.toList_some] at hhead
    rw [List.head?_append, hhead, Option.some_or]
  rooted_of_current := by
    intro hparents
    have hnode : graph.hierarchy.Rooted node := by
      cases hparent : graph.parent? node with
      | none => exact .of_root hparent
      | some parent => exact .of_parent hparent (hparents parent hparent)
    intro other hmem
    rcases List.mem_append.mp hmem with hpath | hother
    · refine hfollowing.rooted_of_current ?_ other hpath
      intro current hcurrent
      exact Option.some.inj hcurrent ▸ hnode
    · exact List.mem_singleton.mp hother ▸ hnode

theorem head?_drop_idxOf? {node : Nat} (hmem : node ∈ path) :
    (path.drop ((path.idxOf? node).getD 0)).head? = some node := by
  rcases Option.isSome_iff_exists.mp (List.isSome_idxOf?.mpr hmem) with ⟨index, hindex⟩
  rcases List.idxOf?_eq_some_iff.mp hindex with ⟨hlt, heq, -⟩
  simp [hindex, List.head?_drop, hlt, heq]

theorem Following.firstCycle {start node : Nat}
    (hfollowing : graph.Following settled start marks path (some node))
    (hbefore : ∀ earlier < start, graph.hierarchy.Rooted earlier)
    (hmem : node ∈ path) :
    graph.hierarchy.FirstCycle
      (path.take ((path.idxOf? node).getD 0)) (path.drop ((path.idxOf? node).getD 0))
      node where
  walk := by simpa using hfollowing.walk
  nodup := by simpa using hfollowing.nodup
  loop_head := head?_drop_idxOf? hmem
  earliest := by
    refine ⟨start, ?_, hbefore⟩
    have hhead := hfollowing.head_eq
    rw [List.head?_append_of_ne_nil _ (List.ne_nil_of_mem hmem)] at hhead
    rwa [List.take_append_drop]

def ReportsFirstCycle (graph : InheritanceGraph) (error : CompileError) : Prop :=
  ∃ tail loop first, graph.hierarchy.FirstCycle tail loop first ∧
    error = .inheritanceCycle ((loop ++ [first]).map graph.name)

theorem follow_unvisited {node : Nat} (hmark : marks[node]? = some .unvisited) :
    graph.follow marks path (some node) =
      graph.follow (marks.set node .onPath) (path ++ [node]) (graph.parent? node) := by
  rw [follow]
  split <;> simp_all

theorem follow_onPath {node : Nat} (hmark : marks[node]? = some .onPath) :
    graph.follow marks path (some node) =
      .error (.inheritanceCycle (graph.cycleNames path node)) := by
  rw [follow]
  split <;> simp_all

theorem follow_done {node : Nat} (hmark : marks[node]? = some .done) :
    graph.follow marks path (some node) = .ok (marks, path) := by
  rw [follow]
  split <;> simp_all

theorem follow_spec (hbounded : graph.hierarchy.Bounded) {start : Nat}
    {current : Option Nat}
    (hbefore : ∀ earlier < start, graph.hierarchy.Rooted earlier)
    (hfollowing : graph.Following settled start marks path current) :
    match graph.follow marks path current with
    | .ok (marks, path) => graph.Followed settled start marks path
    | .error error => graph.ReportsFirstCycle error := by
  induction marks, path, current using follow.induct graph with
  | case1 marks path =>
      rw [follow]
      exact hfollowing.followed (by simp)
  | case2 marks path node hmark ih =>
      rw [follow_unvisited hmark]
      exact ih (hfollowing.step hbounded hmark)
  | case3 marks path node hmark =>
      rw [follow_onPath hmark]
      have hmem := (hfollowing.onPath_iff node).mp hmark
      exact ⟨_, _, node, hfollowing.firstCycle hbefore hmem, by simp [cycleNames]⟩
  | case4 marks path node hmark =>
      rw [follow_done hmark]
      exact hfollowing.followed fun other hother => Option.some.inj hother ▸ hmark
  | case5 marks path node hmark =>
      have hlt := hfollowing.current_lt node rfl
      rw [← hfollowing.length_eq] at hlt
      rw [List.getElem?_eq_none_iff] at hmark
      omega

/-- All starts below the given number have been followed. -/
structure Searched (graph : InheritanceGraph) (count : Nat) (marks : List Mark) :
    Prop where
  marked : graph.Marked marks marks []
  settled : ∀ node < count, marks[node]? = some .done

theorem getElem?_foldl_set_done (marks : List Mark) (path : List Nat) (node : Nat) :
    (path.foldl (fun marks node => marks.set node .done) marks)[node]? =
      if node ∈ path ∧ node < marks.length then some .done else marks[node]? := by
  induction path generalizing marks with
  | nil => simp
  | cons first rest ih =>
      rw [List.foldl_cons, ih, List.length_set]
      by_cases hrest : node ∈ rest ∧ node < marks.length
      · simp [hrest]
      · by_cases heq : first = node
        · subst heq
          by_cases hlt : first < marks.length
          · simp [hlt]
          · simp [hlt]
        · simp [hrest, heq, Ne.symm heq]

theorem length_foldl_set_done (marks : List Mark) (path : List Nat) :
    (path.foldl (fun marks node => marks.set node .done) marks).length =
      marks.length := by
  induction path generalizing marks with
  | nil => rfl
  | cons first rest ih => rw [List.foldl_cons, ih, List.length_set]

theorem Followed.searched {start : Nat}
    (hfollowed : graph.Followed settled start marks path)
    (hsettled : ∀ node < start, settled[node]? = some .done)
    (hstart : start < graph.size) :
    graph.Searched (start + 1)
      (path.foldl (fun marks node => marks.set node .done) marks) := by
  constructor
  · constructor
    · rw [length_foldl_set_done, hfollowed.length_eq]
    · intro node
      rw [getElem?_foldl_set_done]
      by_cases hpath : node ∈ path ∧ node < marks.length
      · simp [hpath]
      · rw [if_neg hpath, hfollowed.onPath_iff]
        refine ⟨fun hmem => ?_, fun hmem => absurd hmem List.not_mem_nil⟩
        have hmark := (hfollowed.onPath_iff node).mpr hmem
        exact absurd ⟨hmem, (List.getElem?_eq_some_iff.mp hmark).1⟩ hpath
    · intro node hdone
      rw [getElem?_foldl_set_done] at hdone
      by_cases hpath : node ∈ path ∧ node < marks.length
      · exact hfollowed.rooted node hpath.1
      · rw [if_neg hpath] at hdone
        exact hfollowed.rooted_of_done node hdone
    · exact fun _ hdone => hdone
  · intro node hnode
    have hmet : marks[node]? = some .done ∨ node ∈ path := by
      by_cases heq : node = start
      · exact heq ▸ hfollowed.start_met
      · exact .inl (hfollowed.kept node (hsettled node (by omega)))
    rw [getElem?_foldl_set_done, hfollowed.length_eq]
    rcases hmet with hdone | hmem
    · rw [hdone, ite_self]
    · rw [if_pos ⟨hmem, by omega⟩]

theorem followFrom_spec (hbounded : graph.hierarchy.Bounded) {start : Nat}
    (hstart : start < graph.size) (hsearched : graph.Searched start marks) :
    match graph.followFrom marks start with
    | .ok marks => graph.Searched (start + 1) marks
    | .error error => graph.ReportsFirstCycle error := by
  have hfollowing : graph.Following marks start marks [] (some start) := {
    toMarked := hsearched.marked
    current_lt := fun node hnode => Option.some.inj hnode ▸ hstart
    nodup := List.nodup_nil
    walk := List.isChain_singleton start
    head_eq := rfl
    rooted_of_current := by simp
  }
  have hspec := follow_spec hbounded
    (fun node hnode => hsearched.marked.rooted_of_done node (hsearched.settled node hnode))
    hfollowing
  unfold followFrom
  cases hfollow : graph.follow marks [] (some start) with
  | error error =>
      rw [hfollow] at hspec
      exact hspec
  | ok result =>
      rw [hfollow] at hspec
      exact hspec.searched hsearched.settled hstart

theorem searchedUpTo_spec (hbounded : graph.hierarchy.Bounded) {count : Nat}
    (hcount : count ≤ graph.size) :
    match (List.range count).foldlM graph.followFrom
        (List.replicate graph.size .unvisited) with
    | .ok marks => graph.Searched count marks
    | .error error => graph.ReportsFirstCycle error := by
  induction count with
  | zero =>
      exact {
        marked := {
          length_eq := List.length_replicate
          onPath_iff := by simp [List.getElem?_replicate]
          rooted_of_done := by simp [List.getElem?_replicate]
          kept := fun _ hdone => hdone
        }
        settled := by simp
      }
  | succ count ih =>
      have hearlier := ih (by omega)
      rw [List.range_succ, List.foldlM_append]
      cases hfold : (List.range count).foldlM graph.followFrom
          (List.replicate graph.size .unvisited) with
      | error error =>
          rw [hfold] at hearlier
          exact hearlier
      | ok marks =>
          rw [hfold] at hearlier
          have hlast :
              (Except.ok marks >>= fun marks => [count].foldlM graph.followFrom marks) =
                graph.followFrom marks count := by
            change [count].foldlM graph.followFrom marks = _
            simp
          rw [hlast]
          exact followFrom_spec hbounded hcount hearlier

/-- A graph passes the search exactly if it is a forest; otherwise the first
loop is reported. -/
theorem checkAcyclic_spec (hbounded : graph.hierarchy.Bounded) :
    match graph.checkAcyclic with
    | .ok _ => graph.hierarchy.IsForest
    | .error error => graph.ReportsFirstCycle error := by
  have hspec := searchedUpTo_spec hbounded (Nat.le_refl graph.size)
  unfold checkAcyclic
  cases hfold : (List.range graph.size).foldlM graph.followFrom
      (List.replicate graph.size .unvisited) with
  | error error =>
      rw [hfold] at hspec
      exact hspec
  | ok marks =>
      rw [hfold] at hspec
      exact {
        toBounded := hbounded
        rooted := fun node hnode =>
          hspec.marked.rooted_of_done node (hspec.settled node hnode)
      }

end InheritanceGraph

end ErrorTaxonomy
