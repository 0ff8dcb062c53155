import ErrorTaxonomy.Proofs.CycleSearch
import ErrorTaxonomy.Proofs.FirstFailure
import Mathlib.Data.List.Nodup

/-!
# Construction of the inheritance graph

Errors with distinct names have a graph exactly if every parent name is carried
by one of them and no error is its own ancestor.  Otherwise the construction
reports the first error whose parent is unknown, and only where there is none
the first cycle, which is determined by the errors.
-/

namespace ErrorTaxonomy

namespace Hierarchy

variable {hierarchy : Hierarchy}

theorem isPrefix_of_isChain {shorter longer : List Nat}
    (hshorter : shorter.IsChain hierarchy.Inherits)
    (hlonger : longer.IsChain hierarchy.Inherits)
    (hhead : shorter.head? = longer.head?) (hlength : shorter.length ≤ longer.length) :
    shorter <+: longer := by
  induction shorter generalizing longer with
  | nil => exact List.nil_prefix
  | cons node rest ih =>
      obtain ⟨longerRest, rfl⟩ : ∃ longerRest, longer = node :: longerRest :=
        List.head?_eq_some_iff.mp hhead.symm
      refine List.cons_prefix_cons.mpr ⟨rfl, ?_⟩
      cases rest with
      | nil => exact List.nil_prefix
      | cons parent rest =>
          cases longerRest with
          | nil => simp at hlength
          | cons other longerRest =>
              rw [List.isChain_cons_cons] at hshorter hlonger
              have heq : parent = other :=
                Option.some.inj (hshorter.1.symm.trans hlonger.1)
              exact ih hshorter.2 hlonger.2 (by rw [heq]; rfl) (by simpa using hlength)

namespace FirstCycle

variable {tail loop tail' loop' : List Nat} {first first' : Nat}

theorem first_mem_loop (hcycle : hierarchy.FirstCycle tail loop first) :
    first ∈ loop :=
  List.mem_of_head? hcycle.loop_head

theorem exists_start (hcycle : hierarchy.FirstCycle tail loop first) :
    ∃ start, (tail ++ loop ++ [first]).head? = some start ∧
      (∀ node < start, hierarchy.Rooted node) ∧ ¬ hierarchy.Rooted start := by
  rcases hcycle.earliest with ⟨start, hstart, hearlier⟩
  have hhead : (tail ++ loop ++ [first]).head? = some start := by
    rw [List.head?_append, hstart, Option.some_or]
  have hlast : (tail ++ loop ++ [first]).getLast? = some first :=
    List.getLast?_concat
  refine ⟨start, hhead, hearlier, fun hrooted => ?_⟩
  have hreaches := reaches_of_isChain hcycle.walk hhead hlast
  exact (hrooted.of_reaches hreaches).not_transGen_self hcycle.cyclic

theorem head_eq (hcycle : hierarchy.FirstCycle tail loop first)
    (hcycle' : hierarchy.FirstCycle tail' loop' first') :
    (tail ++ loop ++ [first]).head? = (tail' ++ loop' ++ [first']).head? := by
  rcases hcycle.exists_start with ⟨start, hstart, hearlier, hnot⟩
  rcases hcycle'.exists_start with ⟨start', hstart', hearlier', hnot'⟩
  rw [hstart, hstart', Option.some.injEq]
  rcases Nat.lt_trichotomy start start' with hlt | heq | hlt
  · exact absurd (hearlier' start hlt) hnot
  · exact heq
  · exact absurd (hearlier start' hlt) hnot'

/-- A walk that has closed its loop does not go on without repeating a node. -/
theorem length_le (hcycle : hierarchy.FirstCycle tail loop first)
    (hcycle' : hierarchy.FirstCycle tail' loop' first') :
    (tail' ++ loop').length ≤ (tail ++ loop).length := by
  by_contra hlonger
  have hlength : (tail ++ loop ++ [first]).length ≤ (tail' ++ loop').length := by
    rw [List.length_append, List.length_singleton]
    omega
  have hbegins : tail ++ loop ++ [first] <+: tail' ++ loop' ++ [first'] :=
    isPrefix_of_isChain hcycle.walk hcycle'.walk (hcycle.head_eq hcycle')
      (hlength.trans (List.prefix_append _ _).length_le)
  have hbefore : tail ++ loop ++ [first] <+: tail' ++ loop' :=
    List.prefix_of_prefix_length_le hbegins (List.prefix_append _ _) hlength
  have hnodup := hcycle'.nodup.sublist hbefore.sublist
  have hmem : first ∈ tail ++ loop := List.mem_append_right _ hcycle.first_mem_loop
  exact (List.nodup_append.mp hnodup).2.2 first hmem first List.mem_cons_self rfl

theorem unique (hcycle : hierarchy.FirstCycle tail loop first)
    (hcycle' : hierarchy.FirstCycle tail' loop' first') :
    loop = loop' ∧ first = first' := by
  have hlength : (tail ++ loop ++ [first]).length = (tail' ++ loop' ++ [first']).length := by
    have hpaths := Nat.le_antisymm (hcycle'.length_le hcycle) (hcycle.length_le hcycle')
    simp only [List.length_append, List.length_singleton] at hpaths ⊢
    rw [hpaths]
  have hbegins : tail ++ loop ++ [first] <+: tail' ++ loop' ++ [first'] :=
    isPrefix_of_isChain hcycle.walk hcycle'.walk (hcycle.head_eq hcycle')
      (Nat.le_of_eq hlength)
  rcases List.append_inj' (hbegins.eq_of_length hlength) rfl with ⟨hpaths, hfirst⟩
  obtain rfl : first = first' := (List.cons.inj hfirst).1
  refine ⟨?_, rfl⟩
  rcases List.head?_eq_some_iff.mp hcycle.loop_head with ⟨rest, rfl⟩
  rcases List.head?_eq_some_iff.mp hcycle'.loop_head with ⟨rest', rfl⟩
  rcases List.nodup_append.mp hcycle.nodup with ⟨-, hloop, hdisjoint⟩
  have htail : first ∉ tail := fun hmem =>
    hdisjoint first hmem first List.mem_cons_self rfl
  have hrest : first ∉ rest := (List.nodup_cons.mp hloop).1
  rw [((List.append_cons_inj_of_notMem htail hrest).mp hpaths).2.2]

end FirstCycle

end Hierarchy

theorem idxOf?_eq_some_iff_of_nodup {α : Type} [DecidableEq α] {list : List α}
    (hnodup : list.Nodup) {a : α} {index : Nat} :
    list.idxOf? a = some index ↔ list[index]? = some a := by
  rw [List.idxOf?_eq_some_iff, List.getElem?_eq_some_iff]
  constructor
  · rintro ⟨hlt, heq, -⟩
    exact ⟨hlt, heq⟩
  · rintro ⟨hlt, rfl⟩
    refine ⟨hlt, rfl, fun earlier hearlier heq => ?_⟩
    exact hearlier.ne (hnodup.getElem_inj_iff.mp heq)

namespace Hierarchy

variable {entries : List NamedLink}

/-- The second name is the parent of the first. -/
def InheritsName (entries : List NamedLink) (child parent : String) : Prop :=
  (child, some parent) ∈ entries

def nameAt (entries : List NamedLink) (node : Nat) : String :=
  (entries.map Prod.fst)[node]?.getD ""

theorem named_inherits_iff (hnames : (entries.map Prod.fst).Nodup) {node other : Nat} :
    (named entries).Inherits node other ↔
      ∃ child parent, entries[node]? = some (child, some parent) ∧
        (entries.map Prod.fst)[other]? = some parent := by
  simp only [Inherits, named, Option.bind_eq_some_iff, idxOf?_eq_some_iff_of_nodup hnames]
  constructor
  · rintro ⟨parent, ⟨⟨child, _⟩, hentry, rfl⟩, hother⟩
    exact ⟨child, parent, hentry, hother⟩
  · rintro ⟨child, parent, hentry, hother⟩
    exact ⟨parent, ⟨_, hentry, rfl⟩, hother⟩

theorem inheritsName_of_named (hnames : (entries.map Prod.fst).Nodup) {node other : Nat}
    (hparent : (named entries).Inherits node other) :
    InheritsName entries (nameAt entries node) (nameAt entries other) := by
  rcases (named_inherits_iff hnames).mp hparent with ⟨child, parent, hentry, hother⟩
  have hnode : (entries.map Prod.fst)[node]? = some child := by
    rw [List.getElem?_map, hentry]
    rfl
  rw [InheritsName, nameAt, nameAt, hnode, hother]
  exact List.mem_of_getElem? hentry

theorem named_of_inheritsName (hnames : (entries.map Prod.fst).Nodup)
    {child parent : String} (hparent : InheritsName entries child parent)
    (hdeclared : parent ∈ entries.map Prod.fst) :
    (named entries).Inherits ((entries.map Prod.fst).idxOf child)
      ((entries.map Prod.fst).idxOf parent) := by
  rcases List.mem_iff_getElem?.mp hparent with ⟨node, hentry⟩
  have hchild : (entries.map Prod.fst)[node]? = some child := by
    rw [List.getElem?_map, hentry]
    rfl
  have hindex : (entries.map Prod.fst).idxOf child = node := by
    rw [List.idxOf_eq_getD_idxOf?, (idxOf?_eq_some_iff_of_nodup hnames).mpr hchild]
    rfl
  rw [hindex, named_inherits_iff hnames]
  exact ⟨child, parent, hentry, List.getElem?_idxOf hdeclared⟩

def ParentsNamed (entries : List NamedLink) : Prop :=
  ∀ child parent, InheritsName entries child parent → parent ∈ entries.map Prod.fst

def Acyclic (entries : List NamedLink) : Prop :=
  ∀ name, ¬ Relation.TransGen (InheritsName entries) name name

theorem IsForest.acyclic (hnames : (entries.map Prod.fst).Nodup)
    (hparents : ParentsNamed entries) (hforest : (named entries).IsForest) :
    Acyclic entries := by
  intro name hcycle
  have hround := Relation.TransGen.lift (entries.map Prod.fst).idxOf
    (fun child parent hparent =>
      named_of_inheritsName hnames hparent (hparents child parent hparent))
    _ _ hcycle
  rcases Relation.TransGen.head'_iff.mp hround with ⟨_, hparent, -⟩
  exact (hforest.rooted _ (hforest.child_lt hparent)).not_transGen_self hround

theorem FirstCycle.not_acyclic (hnames : (entries.map Prod.fst).Nodup)
    {tail loop : List Nat} {first : Nat}
    (hcycle : (named entries).FirstCycle tail loop first) : ¬ Acyclic entries := by
  intro hacyclic
  exact hacyclic (nameAt entries first) (Relation.TransGen.lift (nameAt entries)
    (fun _ _ hparent => inheritsName_of_named hnames hparent) _ _ hcycle.cyclic)

theorem forall_inheritsName_map_iff {α : Type} {link : α → NamedLink} {items : List α}
    {p : String → Prop} :
    (∀ child parent, InheritsName (items.map link) child parent → p parent) ↔
      ∀ item ∈ items, ∀ parent, (link item).2 = some parent → p parent := by
  constructor
  · intro hparents item hmem parent hparent
    exact hparents (link item).1 parent
      (List.mem_map.mpr ⟨item, hmem, Prod.ext rfl hparent⟩)
  · intro hparents child parent hparent
    rcases List.mem_map.mp hparent with ⟨item, hmem, hlink⟩
    exact hparents item hmem parent (congrArg Prod.snd hlink)

/-- The one error that links between names are refused with. -/
inductive Refuses (entries : List NamedLink) : CompileError → Prop
  | unknownParent {before after : List NamedLink} {child parent : String} :
      entries = before ++ (child, some parent) :: after →
        (∀ other otherParent, InheritsName before other otherParent →
          otherParent ∈ entries.map Prod.fst) →
        parent ∉ entries.map Prod.fst → Refuses entries (.unknownParent child parent)
  | inheritanceCycle {tail loop : List Nat} {first : Nat} :
      ParentsNamed entries → (named entries).FirstCycle tail loop first →
        Refuses entries (.inheritanceCycle ((loop ++ [first]).map (nameAt entries)))

end Hierarchy

open Hierarchy

namespace PendingError

variable {pending : List PendingError}

theorem parentsNamed_iff :
    ParentsNamed (pending.map link) ↔
      ∀ error ∈ pending, error.ParentIn (pending.map name) := by
  rw [ParentsNamed, map_fst_link]
  exact forall_inheritsName_map_iff

end PendingError

namespace InheritanceGraph

variable {pending : List PendingError}

theorem checkAcyclic_eq_ok_iff {graph : InheritanceGraph}
    (hbounded : graph.hierarchy.Bounded) {result : Unit} :
    graph.checkAcyclic = .ok result ↔ graph.hierarchy.IsForest := by
  have hspec := checkAcyclic_spec hbounded
  cases hcheck : graph.checkAcyclic with
  | ok _ =>
      rw [hcheck] at hspec
      exact iff_of_true rfl hspec
  | error error =>
      rw [hcheck] at hspec
      rcases hspec with ⟨tail, loop, first, hcycle, -⟩
      exact iff_of_false (by simp) (hcycle.not_isForest hbounded)

theorem checkAcyclic_eq_error_iff {graph : InheritanceGraph}
    (hbounded : graph.hierarchy.Bounded) {error : CompileError} :
    graph.checkAcyclic = .error error ↔ graph.ReportsFirstCycle error := by
  have hspec := checkAcyclic_spec hbounded
  cases hcheck : graph.checkAcyclic with
  | ok _ =>
      rw [hcheck] at hspec
      refine iff_of_false (by simp) ?_
      rintro ⟨tail, loop, first, hcycle, -⟩
      exact hcycle.not_isForest hbounded hspec
  | error other =>
      rw [hcheck] at hspec
      rw [Except.error.injEq]
      constructor
      · rintro rfl
        exact hspec
      · rintro ⟨tail, loop, first, hcycle, rfl⟩
        rcases hspec with ⟨tail', loop', first', hcycle', rfl⟩
        rcases hcycle.unique hcycle' with ⟨rfl, rfl⟩
        rfl

theorem name_linked (hnames : (pending.map PendingError.name).Nodup) :
    (linked pending).name = nameAt (pending.map PendingError.link) := by
  funext node
  rw [name, linked, NameIndex.name?_ofNames hnames, nameAt, PendingError.map_fst_link]

theorem reportsFirstCycle_linked_iff (hnames : (pending.map PendingError.name).Nodup)
    {error : CompileError} :
    (linked pending).ReportsFirstCycle error ↔ ∃ tail loop first,
      (named (pending.map PendingError.link)).FirstCycle tail loop first ∧
        error = .inheritanceCycle
          ((loop ++ [first]).map (nameAt (pending.map PendingError.link))) := by
  rw [ReportsFirstCycle, hierarchy_linked, name_linked hnames]

theorem isForest_iff_acyclic (hnames : (pending.map PendingError.name).Nodup)
    (hparents : ParentsNamed (pending.map PendingError.link)) :
    (named (pending.map PendingError.link)).IsForest ↔
      Acyclic (pending.map PendingError.link) := by
  have hbounded := (wellLinked_linked pending).bounded
  have hentries : ((pending.map PendingError.link).map Prod.fst).Nodup := by
    rwa [PendingError.map_fst_link]
  constructor
  · exact IsForest.acyclic hentries hparents
  · intro hacyclic
    cases hcheck : (linked pending).checkAcyclic with
    | ok _ =>
        rw [← hierarchy_linked]
        exact (checkAcyclic_eq_ok_iff hbounded).mp hcheck
    | error error =>
        have hreports := (checkAcyclic_eq_error_iff hbounded).mp hcheck
        rcases (reportsFirstCycle_linked_iff hnames).mp hreports with
          ⟨tail, loop, first, hcycle, -⟩
        exact absurd hacyclic (hcycle.not_acyclic hentries)

theorem build_eq_of_refuses (hnames : (pending.map PendingError.name).Nodup)
    {error : CompileError} (hrefuses : Refuses (pending.map PendingError.link) error) :
    build pending = .error error := by
  cases hrefuses with
  | unknownParent hlinks hbefore hunknown =>
      rw [PendingError.map_fst_link] at hbefore hunknown
      rcases List.map_eq_append_iff.mp hlinks with ⟨earlier, rest, rfl, rfl, hrest⟩
      rcases List.map_eq_cons_iff.mp hrest with ⟨refused, later, rfl, hlink, rfl⟩
      rcases Prod.mk.inj hlink with ⟨rfl, hparent⟩
      exact build_eq_unknownParent (forall_inheritsName_map_iff.mp hbefore) hparent hunknown
  | inheritanceCycle hparents hcycle =>
      have hreports := (reportsFirstCycle_linked_iff hnames).mpr ⟨_, _, _, hcycle, rfl⟩
      rw [build_eq hnames (PendingError.parentsNamed_iff.mp hparents), bind_eq_error_iff]
      exact .inl ((checkAcyclic_eq_error_iff (wellLinked_linked pending).bounded).mpr hreports)

theorem exists_refuses_of_not_parentsNamed
    (hparents : ¬ ParentsNamed (pending.map PendingError.link)) :
    ∃ error, Refuses (pending.map PendingError.link) error := by
  rw [PendingError.parentsNamed_iff] at hparents
  rcases forall_mem_or_first (PendingError.ParentIn (pending.map PendingError.name)) pending
    with hknown | ⟨before, refused, after, hlist, hbefore, hrefused⟩
  · exact absurd hknown hparents
  · simp only [PendingError.ParentIn, not_forall] at hrefused
    rcases hrefused with ⟨parent, hparent, hunknown⟩
    have hlinks : pending.map PendingError.link =
        before.map PendingError.link ++
          (refused.name, some parent) :: after.map PendingError.link := by
      rw [hlist, List.map_append, List.map_cons, ← hparent]
      rfl
    rw [← PendingError.map_fst_link] at hbefore hunknown
    exact ⟨_, .unknownParent hlinks (forall_inheritsName_map_iff.mpr hbefore) hunknown⟩

theorem build_eq_ok_iff (hnames : (pending.map PendingError.name).Nodup)
    {graph : InheritanceGraph} :
    build pending = .ok graph ↔
      ParentsNamed (pending.map PendingError.link) ∧
        (named (pending.map PendingError.link)).IsForest ∧ graph = linked pending := by
  by_cases hparents : ParentsNamed (pending.map PendingError.link)
  · rw [build_eq hnames (PendingError.parentsNamed_iff.mp hparents), bind_eq_ok_iff]
    simp only [checkAcyclic_eq_ok_iff (wellLinked_linked pending).bounded, hierarchy_linked,
      Except.ok.injEq, exists_const, hparents, true_and, eq_comm]
  · rcases exists_refuses_of_not_parentsNamed hparents with ⟨error, hrefuses⟩
    rw [build_eq_of_refuses hnames hrefuses]
    simp [hparents]

theorem build_eq_error_iff (hnames : (pending.map PendingError.name).Nodup)
    {error : CompileError} :
    build pending = .error error ↔ Refuses (pending.map PendingError.link) error := by
  constructor
  · intro hbuild
    by_cases hparents : ParentsNamed (pending.map PendingError.link)
    · rw [build_eq hnames (PendingError.parentsNamed_iff.mp hparents), bind_eq_error_iff,
        checkAcyclic_eq_error_iff (wellLinked_linked pending).bounded,
        reportsFirstCycle_linked_iff hnames] at hbuild
      rcases hbuild with ⟨tail, loop, first, hcycle, rfl⟩ | ⟨_, _, hnever⟩
      · exact .inheritanceCycle hparents hcycle
      · contradiction
    · rcases exists_refuses_of_not_parentsNamed hparents with ⟨other, hrefuses⟩
      rw [build_eq_of_refuses hnames hrefuses, Except.error.injEq] at hbuild
      exact hbuild ▸ hrefuses
  · exact build_eq_of_refuses hnames

end InheritanceGraph

end ErrorTaxonomy
