import ErrorTaxonomy.Proofs.StrategyAgreement

/-!
# The tables of the graph

A graph keeps what it knows of the errors in three tables: the index of their names,
the parent of each node, and the children of each node.  They are filled one by one and
never compared, yet an error has the same number in all three, its position in the order
of encounter.  The names agree because validation has left them distinct; the two link
tables agree because both are filled by the same links.  They are inverse to each other,
so the nodes are met once each among the roots and the children.
-/

namespace ErrorTaxonomy

namespace InheritanceGraph

open Hierarchy

/-- The tables say of every error what it says itself, under its position in the order of
encounter. -/
structure Represents (graph : InheritanceGraph) (pending : List PendingError) : Prop where
  size_eq : graph.size = pending.length
  length_children : graph.links.children.length = pending.length
  name_eq : ∀ node error, pending[node]? = some error → graph.name node = error.name
  node_eq : ∀ node error, pending[node]? = some error →
    graph.names.node? error.name = some node
  parent_eq_some_iff : ∀ node error, pending[node]? = some error → ∀ parent,
    graph.parent? node = some parent ↔
      ∃ other, pending[parent]? = some other ∧ error.parent = some other.name
  parent_eq_none_iff : ∀ node error, pending[node]? = some error →
    (graph.parent? node = none ↔ error.parent = none)
  mem_children_iff : ∀ child parent,
    child ∈ graph.children parent ↔ graph.parent? child = some parent
  children_ascending : ∀ parent, (graph.children parent).Pairwise (· < ·)
  covers_once :
    (graph.roots ++ (List.range graph.size).flatMap graph.children).Perm
      (List.range pending.length)

variable {graph : InheritanceGraph} {pending : List PendingError} {error : PendingError}
  {node parent : Nat}

/-- A node has one parent only, so it is a root or listed with this parent alone. -/
theorem WellLinked.nodup_roots_append_children (hlinked : graph.WellLinked) :
    (graph.roots ++ (List.range graph.size).flatMap graph.children).Nodup := by
  refine List.nodup_append.mpr ⟨List.nodup_range.filter _, ?_, ?_⟩
  · refine List.nodup_flatMap.mpr ⟨fun parent _ => hlinked.nodup_children parent, ?_⟩
    refine List.nodup_range.imp fun {a b} hne => ?_
    intro child ha hb
    have hparents := ((mem_children hlinked).mp ha).symm.trans ((mem_children hlinked).mp hb)
    exact hne (Option.some.inj hparents)
  · rintro root hroot child hchild rfl
    rcases List.mem_flatMap.mp hchild with ⟨parent, -, hmem⟩
    have hparent := (mem_children hlinked).mp hmem
    rw [(mem_roots.mp hroot).2] at hparent
    contradiction

theorem WellLinked.roots_append_children_perm (hlinked : graph.WellLinked) :
    (graph.roots ++ (List.range graph.size).flatMap graph.children).Perm
      (List.range graph.size) := by
  refine (List.perm_ext_iff_of_nodup hlinked.nodup_roots_append_children
    List.nodup_range).mpr fun node => ?_
  simp only [List.mem_append, mem_roots, List.mem_flatMap, List.mem_range,
    mem_children hlinked]
  constructor
  · rintro (⟨hnode, -⟩ | ⟨parent, -, hparent⟩)
    · exact hnode
    · exact hlinked.bounded.child_lt hparent
  · intro hnode
    cases hparent : graph.parent? node with
    | none => exact .inl ⟨hnode, rfl⟩
    | some parent => exact .inr ⟨parent, hlinked.bounded.parent_lt hparent, rfl⟩

theorem parent?_linked_eq_some_iff (hnames : (pending.map PendingError.name).Nodup)
    (herror : pending[node]? = some error) :
    (linked pending).parent? node = some parent ↔
      ∃ other, pending[parent]? = some other ∧ error.parent = some other.name := by
  have hentries : ((pending.map PendingError.link).map Prod.fst).Nodup := by
    rwa [PendingError.map_fst_link]
  rw [parent?_linked]
  change (named (pending.map PendingError.link)).Inherits node parent ↔ _
  rw [named_inherits_iff hentries]
  simp only [PendingError.map_fst_link, List.getElem?_map, herror, Option.map_some,
    Option.some.injEq, Option.map_eq_some_iff, PendingError.link, Prod.mk.injEq]
  constructor
  · rintro ⟨_, _, ⟨-, hparent⟩, other, hother, rfl⟩
    exact ⟨other, hother, hparent⟩
  · rintro ⟨other, hother, hparent⟩
    exact ⟨_, _, ⟨rfl, hparent⟩, other, hother, rfl⟩

theorem parent?_linked_eq_none_iff
    (hparents : ParentsNamed (pending.map PendingError.link))
    (herror : pending[node]? = some error) :
    (linked pending).parent? node = none ↔ error.parent = none := by
  rw [PendingError.parentsNamed_iff] at hparents
  rw [parent?_linked]
  simp only [named, List.getElem?_map, herror, Option.map_some, Option.bind_some,
    PendingError.link, PendingError.map_fst_link]
  cases hparent : error.parent with
  | none => simp
  | some parent =>
      have hdeclared := hparents error (List.mem_of_getElem? herror) parent hparent
      simpa using hdeclared

theorem node?_linked (hnames : (pending.map PendingError.name).Nodup)
    (herror : pending[node]? = some error) :
    (linked pending).names.node? error.name = some node := by
  have hname : (pending.map PendingError.name)[node]? = some error.name := by
    rw [List.getElem?_map, herror]
    rfl
  rw [linked, NameIndex.node?_ofNames, lastIndex?_eq_idxOf? _ hnames]
  exact (idxOf?_eq_some_iff_of_nodup hnames).mpr hname

theorem represents_linked (hnames : (pending.map PendingError.name).Nodup)
    (hparents : ParentsNamed (pending.map PendingError.link)) :
    (linked pending).Represents pending := by
  have hlinked := wellLinked_linked pending
  constructor
  · exact size_linked pending
  · simp [linked, linksBefore]
  · intro node error herror
    rw [name, linked, NameIndex.name?_ofNames hnames, List.getElem?_map, herror]
    rfl
  · intro node error herror
    exact node?_linked hnames herror
  · intro node error herror parent
    exact parent?_linked_eq_some_iff hnames herror
  · intro node error herror
    exact parent?_linked_eq_none_iff hparents herror
  · intro child parent
    exact mem_children hlinked
  · intro parent
    rw [hlinked.children_eq]
    exact List.pairwise_lt_range.filter _
  · have hperm := hlinked.roots_append_children_perm
    rwa [size_linked] at hperm ⊢

end InheritanceGraph

theorem nodup_names_of_validate {fragments : List Fragment} {pending : List PendingError}
    (hvalid : (validate fragments).outcome = .ok pending) :
    (pending.map PendingError.name).Nodup := by
  rw [validate, Traced.outcome_bind] at hvalid
  rcases bind_eq_ok_iff.mp hvalid with ⟨_, hall, hnoted⟩
  obtain rfl := Except.ok.inj hnoted
  exact nodup_names_of_validateAll hall

/-- The graph that is built from validated fragments represents the pending errors. -/
theorem represents_of_build (fragments : List Fragment)
    (pending : List PendingError) (graph : InheritanceGraph)
    (hvalid : (validate fragments).outcome = .ok pending)
    (hbuild : InheritanceGraph.build pending = .ok graph) :
    graph.Represents pending := by
  have hnames := nodup_names_of_validate hvalid
  rcases (InheritanceGraph.build_eq_ok_iff hnames).mp hbuild with ⟨hparents, -, rfl⟩
  exact InheritanceGraph.represents_linked hnames hparents

/-- Two children of `Io`, one met before it and one after, and a child of the first of
them; the records stand in another order than the errors. -/
def siblingFragments : List Fragment :=
  [{ interface := some "disk"
     errors := [{ name := "Full", inherits := ["base.Io"] }, { name := "Io" }]
     metadata := [{ name := "Io", level := "err" }, { name := "Full", level := "Warn" }] },
    { errors :=
        [{ name := "Quota", inherits := ["disk.Full"] },
          { name := "Lost", inherits := ["base.Io", "Full"] }]
      metadata :=
        [{ name := "Lost", level := "ALERT" }, { name := "Quota", level := "notice" }] }]

def siblingErrors : List PendingError :=
  [{ name := "Full", interface := some "disk", message := "", level := .warning
     parent := some "Io", entries := [] },
    { name := "Io", interface := some "disk", message := "", level := .error
      parent := none, entries := [] },
    { name := "Quota", interface := none, message := "", level := .notice
      parent := some "Full", entries := [] },
    { name := "Lost", interface := none, message := "", level := .alert
      parent := some "Io", entries := [] }]

def siblingGraph : InheritanceGraph where
  names := .ofNames ["Full", "Io", "Quota", "Lost"]
  links :=
    { parents := [some 1, none, some 0, some 1]
      children := [[2], [0, 3], [], []] }

theorem siblingErrors_represented :
    (validate siblingFragments).outcome = .ok siblingErrors ∧
      InheritanceGraph.build siblingErrors = .ok siblingGraph ∧
      siblingGraph.Represents siblingErrors := by
  have hvalid : (validate siblingFragments).outcome = .ok siblingErrors := by
    decide +kernel
  have hbuild : InheritanceGraph.build siblingErrors = .ok siblingGraph := by
    decide +kernel
  exact ⟨hvalid, hbuild,
    represents_of_build siblingFragments siblingErrors siblingGraph hvalid hbuild⟩

end ErrorTaxonomy
