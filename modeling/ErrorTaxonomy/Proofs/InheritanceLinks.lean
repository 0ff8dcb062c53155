import ErrorTaxonomy.Proofs.NameIndex
import ErrorTaxonomy.Proofs.ParentChains

/-!
# The links of the inheritance graph

Pending errors carry names, and a parent is given by its name.  With distinct
names a parent name stands for one node, which makes a hierarchy of the numbered
errors.  Linking fails exactly if some parent name is carried by no error, and
the first such error is reported.  Otherwise the two link tables describe the
hierarchy in both directions: the parent of each node, and the children of each
node in the order of encounter.
-/

namespace ErrorTaxonomy

/-- A name with the name of its parent, if it has one. -/
abbrev NamedLink := String × Option String

namespace Hierarchy

/-- A parent name stands for the first entry of that name. -/
def named (entries : List NamedLink) : Hierarchy where
  size := entries.length
  parent? node :=
    (entries[node]?.bind Prod.snd).bind fun parent =>
      (entries.map Prod.fst).idxOf? parent

@[simp] theorem size_named (entries : List NamedLink) :
    (named entries).size = entries.length := rfl

theorem named_bounded (entries : List NamedLink) : (named entries).Bounded where
  child_lt := by
    intro child parent hparent
    simp only [Inherits, named, Option.bind_eq_some_iff] at hparent
    rcases hparent with ⟨_, ⟨_, hentry, _⟩, _⟩
    exact (List.getElem?_eq_some_iff.mp hentry).1
  parent_lt := by
    intro child parent hparent
    simp only [Inherits, named, Option.bind_eq_some_iff] at hparent
    rcases hparent with ⟨_, _, hindex⟩
    rcases List.idxOf?_eq_some_iff.mp hindex with ⟨hlt, _⟩
    rwa [List.length_map] at hlt

theorem named_parent?_append (before after : List NamedLink) (entry : NamedLink) :
    (named (before ++ entry :: after)).parent? before.length =
      entry.2.bind fun parent =>
        ((before ++ entry :: after).map Prod.fst).idxOf? parent := by
  simp [named]

/-- The links of the first nodes, as many as are counted. -/
def linksBefore (hierarchy : Hierarchy) (count : Nat) : InheritanceLinks where
  parents :=
    (List.range hierarchy.size).map fun node =>
      if node < count then hierarchy.parent? node else none
  children :=
    (List.range hierarchy.size).map fun parent =>
      (List.range count).filter fun child => hierarchy.parent? child = some parent

theorem linksBefore_zero (hierarchy : Hierarchy) :
    hierarchy.linksBefore 0 = .unlinked hierarchy.size := by
  simp [linksBefore, InheritanceLinks.unlinked, List.map_const']

theorem linksBefore_succ_of_root {hierarchy : Hierarchy} {child : Nat}
    (hparent : hierarchy.parent? child = none) :
    hierarchy.linksBefore (child + 1) = hierarchy.linksBefore child := by
  simp only [linksBefore, InheritanceLinks.mk.injEq, List.map_inj_left]
  constructor
  · intro node _
    by_cases heq : node = child
    · subst heq
      simp [hparent]
    · have hiff : node < child + 1 ↔ node < child := by omega
      simp only [hiff]
  · intro parent _
    simp [List.range_succ, hparent]

theorem linksBefore_succ_of_parent {hierarchy : Hierarchy} {child parent : Nat}
    (hbounded : hierarchy.Bounded) (hparent : hierarchy.parent? child = some parent) :
    hierarchy.linksBefore (child + 1) =
      (hierarchy.linksBefore child).link child parent := by
  have hchild := hbounded.child_lt hparent
  simp only [linksBefore, InheritanceLinks.link, InheritanceLinks.mk.injEq]
  constructor
  · apply List.ext_getElem
    · simp
    · intro node hnode _
      by_cases heq : child = node
      · subst heq
        simp [hparent]
      · have hiff : node < child + 1 ↔ node < child := by omega
        rw [List.getElem_set_ne heq]
        simp only [List.getElem_map, List.getElem_range, hiff]
  · apply List.ext_getElem
    · simp
    · intro node hnode _
      by_cases heq : parent = node
      · subst heq
        simp [List.range_succ, hparent]
      · simp [List.range_succ, hparent, heq]

theorem Bounded.join_parents {hierarchy : Hierarchy} (hbounded : hierarchy.Bounded)
    (node : Nat) :
    (hierarchy.linksBefore hierarchy.size).parents[node]?.join =
      hierarchy.parent? node := by
  by_cases hnode : node < hierarchy.size
  · simp [linksBefore, hnode]
  · have hroot : hierarchy.parent? node = none := by
      cases hparent : hierarchy.parent? node with
      | none => rfl
      | some parent => exact absurd (hbounded.child_lt hparent) hnode
    simp [linksBefore, hnode, hroot]

theorem Bounded.getD_children {hierarchy : Hierarchy} (hbounded : hierarchy.Bounded)
    (parent : Nat) :
    (hierarchy.linksBefore hierarchy.size).children[parent]?.getD [] =
      (List.range hierarchy.size).filter fun child =>
        hierarchy.parent? child = some parent := by
  by_cases hnode : parent < hierarchy.size
  · simp [linksBefore, hnode]
  · have hchildless : ∀ child, hierarchy.parent? child ≠ some parent := by
      intro child hparent
      exact hnode (hbounded.parent_lt hparent)
    simp [linksBefore, hnode, hchildless]

end Hierarchy

namespace PendingError

def link (pending : PendingError) : NamedLink :=
  (pending.name, pending.parent)

def ParentIn (names : List String) (pending : PendingError) : Prop :=
  ∀ parent, pending.parent = some parent → parent ∈ names

theorem map_fst_link (pending : List PendingError) :
    (pending.map link).map Prod.fst = pending.map name := by
  simp [link, Function.comp_def]

end PendingError

open Hierarchy

theorem linkParents_eq_ok {all done rest : List PendingError}
    (hall : done ++ rest = all) (hnames : (all.map PendingError.name).Nodup)
    (hdeclared : ∀ pending ∈ rest, pending.ParentIn (all.map PendingError.name)) :
    linkParents (.ofNames (all.map PendingError.name)) done.length
        ((named (all.map PendingError.link)).linksBefore done.length) rest =
      .ok ((named (all.map PendingError.link)).linksBefore all.length) := by
  induction rest generalizing done with
  | nil =>
      rw [List.append_nil] at hall
      subst hall
      rfl
  | cons pending rest ih =>
      have hnode :
          (named (all.map PendingError.link)).parent? done.length =
            pending.parent.bind fun parent =>
              (all.map PendingError.name).idxOf? parent := by
        have happend := named_parent?_append (done.map PendingError.link)
          (rest.map PendingError.link) pending.link
        rw [List.length_map, ← List.map_cons, ← List.map_append, hall,
          PendingError.map_fst_link] at happend
        exact happend
      have hnext := ih (show (done ++ [pending]) ++ rest = all by simpa using hall)
        fun other hmem => hdeclared other (List.mem_cons_of_mem _ hmem)
      rw [List.length_append, List.length_singleton] at hnext
      cases hparent : pending.parent with
      | none =>
          rw [hparent, Option.bind_none] at hnode
          rw [linksBefore_succ_of_root hnode] at hnext
          simpa only [linkParents, hparent] using hnext
      | some parent =>
          have hmem := hdeclared pending List.mem_cons_self parent hparent
          obtain ⟨index, hindex⟩ :=
            Option.isSome_iff_exists.mp (List.isSome_idxOf?.mpr hmem)
          rw [hparent, Option.bind_some, hindex] at hnode
          rw [linksBefore_succ_of_parent (named_bounded _) hnode] at hnext
          simpa only [linkParents, hparent, NameIndex.node?_ofNames,
            lastIndex?_eq_idxOf? _ hnames, hindex] using hnext

theorem linkParents_eq_error {names : List String} {before after : List PendingError}
    {pending : PendingError} {parent : String} (child : Nat) (links : InheritanceLinks)
    (hbefore : ∀ other ∈ before, other.ParentIn names)
    (hparent : pending.parent = some parent) (hunknown : parent ∉ names) :
    linkParents (.ofNames names) child links (before ++ pending :: after) =
      .error (.unknownParent pending.name parent) := by
  induction before generalizing child links with
  | nil =>
      simp only [List.nil_append, linkParents, hparent, NameIndex.node?_ofNames,
        lastIndex?_eq_none_iff.mpr hunknown]
  | cons other before ih =>
      have hrest := fun earlier hmem => hbefore earlier (List.mem_cons_of_mem _ hmem)
      rw [List.cons_append, linkParents]
      cases hother : other.parent with
      | none => exact ih _ _ hrest
      | some otherParent =>
          have hmem := hbefore other List.mem_cons_self otherParent hother
          cases hindex : lastIndex? otherParent names with
          | none => exact absurd hmem (lastIndex?_eq_none_iff.mp hindex)
          | some index =>
              simp only [NameIndex.node?_ofNames, hindex]
              exact ih _ _ hrest

namespace InheritanceGraph

def hierarchy (graph : InheritanceGraph) : Hierarchy where
  size := graph.size
  parent? := graph.parent?

/-- The two link tables of a graph describe the same links. -/
structure WellLinked (graph : InheritanceGraph) : Prop where
  bounded : graph.hierarchy.Bounded
  children_eq : ∀ parent,
    graph.children parent =
      (List.range graph.size).filter fun child => graph.parent? child = some parent

/-- The graph of errors whose parents are all known. -/
def linked (pending : List PendingError) : InheritanceGraph where
  names := .ofNames (pending.map PendingError.name)
  links := (named (pending.map PendingError.link)).linksBefore pending.length

theorem size_linked (pending : List PendingError) :
    (linked pending).size = pending.length := by
  simp [linked, size, linksBefore]

theorem parent?_linked (pending : List PendingError) :
    (linked pending).parent? = (named (pending.map PendingError.link)).parent? := by
  funext node
  have hparents := (named_bounded (pending.map PendingError.link)).join_parents node
  rwa [size_named, List.length_map] at hparents

theorem hierarchy_linked (pending : List PendingError) :
    (linked pending).hierarchy = named (pending.map PendingError.link) := by
  rw [hierarchy, size_linked, parent?_linked]
  simp [named]

theorem wellLinked_linked (pending : List PendingError) :
    (linked pending).WellLinked where
  bounded := by
    rw [hierarchy_linked]
    exact named_bounded _
  children_eq := by
    intro parent
    have hchildren :=
      (named_bounded (pending.map PendingError.link)).getD_children parent
    rw [size_named, List.length_map] at hchildren
    rw [size_linked, parent?_linked]
    exact hchildren

theorem build_eq {pending : List PendingError}
    (hnames : (pending.map PendingError.name).Nodup)
    (hdeclared : ∀ error ∈ pending, error.ParentIn (pending.map PendingError.name)) :
    build pending = (linked pending).checkAcyclic >>= fun _ => .ok (linked pending) := by
  have hlinks := linkParents_eq_ok (List.nil_append pending) hnames hdeclared
  rw [List.length_nil, linksBefore_zero, size_named, List.length_map] at hlinks
  unfold build
  simp only [hlinks]
  rfl

theorem build_eq_unknownParent {before after : List PendingError}
    {pending : PendingError} {parent : String}
    (hbefore : ∀ other ∈ before,
      other.ParentIn ((before ++ pending :: after).map PendingError.name))
    (hparent : pending.parent = some parent)
    (hunknown : parent ∉ (before ++ pending :: after).map PendingError.name) :
    build (before ++ pending :: after) =
      .error (.unknownParent pending.name parent) := by
  unfold build
  simp only [linkParents_eq_error _ _ hbefore hparent hunknown]
  rfl

end InheritanceGraph

end ErrorTaxonomy
