import ErrorTaxonomy.Proofs.CompiledListing
import Mathlib.Data.List.NodupEquivFin

/-!
# The order of a listing

A part of some items that holds the parents of all its items keeps its order: a
node of the part has the same chain of parents in the whole, with the same
inversions, although the numbers of the nodes shift.  The listing of the whole,
restricted to the part, is therefore the listing of the part.

Items of which every parent comes before its children have no inversions at all
and are listed as they are.  Since a listing is such a list, listing it again
changes nothing.
-/

namespace ErrorTaxonomy

namespace Hierarchy

variable {part whole : Hierarchy} {place : Nat → Nat}

/-- The nodes of a part stand in the whole in the same order of encounter and
with the same parents. -/
structure Embeds (part whole : Hierarchy) (place : Nat → Nat) : Prop where
  strictMono : StrictMono place
  place_lt : ∀ node < part.size, place node < whole.size
  parent?_place : ∀ node < part.size, whole.parent? (place node) = (part.parent? node).map place

theorem Embeds.ascends (hembeds : part.Embeds whole place) (hbounded : part.Bounded)
    {node : Nat} {chain : List Nat} (hnode : node < part.size)
    (hchain : part.Ascends node chain) : whole.Ascends (place node) (chain.map place) := by
  induction hchain with
  | root hparent =>
      apply Ascends.root
      rw [hembeds.parent?_place _ hnode, hparent]
      rfl
  | child hparent _ ih =>
      refine Ascends.child ?_ (ih (hbounded.parent_lt hparent))
      rw [hembeds.parent?_place _ hnode, hparent]
      rfl

theorem Embeds.lineage_place (hembeds : part.Embeds whole place) (hforest : part.IsForest)
    (hbounded : whole.Bounded) {node : Nat} (hnode : node < part.size) :
    whole.lineage (place node) = (part.lineage node).map place := by
  have hchain := hembeds.ascends hforest.toBounded hnode (hforest.ascends_lineage hnode)
  exact hchain.lineageWithin_eq (hchain.length_le hbounded (hembeds.place_lt node hnode))

theorem Embeds.isInverted_place (hembeds : part.Embeds whole place) {node : Nat}
    (hnode : node < part.size) : whole.isInverted (place node) = part.isInverted node := by
  unfold isInverted
  rw [hembeds.parent?_place node hnode]
  cases part.parent? node with
  | none => rfl
  | some parent => simp [hembeds.strictMono.lt_iff_lt]

theorem Embeds.inversions_place (hembeds : part.Embeds whole place) (hforest : part.IsForest)
    (hbounded : whole.Bounded) {node : Nat} (hnode : node < part.size) :
    whole.inversions (place node) = part.inversions node := by
  have hchain := hforest.ascends_lineage hnode
  unfold inversions
  rw [hembeds.lineage_place hforest hbounded hnode, List.countP_map]
  apply List.countP_congr
  intro ancestor hmem
  have hlt : ancestor < part.size := hchain.lt_size hforest.toBounded hnode hmem
  rw [Function.comp_apply, hembeds.isInverted_place hlt]

theorem Embeds.precedes_place (hembeds : part.Embeds whole place) (hforest : part.IsForest)
    (hbounded : whole.Bounded) {a b : Nat} (ha : a < part.size) (hb : b < part.size) :
    whole.precedes (place a) (place b) = part.precedes a b := by
  rw [Bool.eq_iff_iff, precedes_iff, precedes_iff,
    hembeds.inversions_place hforest hbounded ha, hembeds.inversions_place hforest hbounded hb,
    hembeds.strictMono.le_iff_le]

/-- The arrangement of the whole, restricted to the part, is that of the part. -/
theorem Embeds.filter_arranged (hembeds : part.Embeds whole place) (hforest : part.IsForest)
    (hbounded : whole.Bounded) :
    whole.arranged.filter (fun node => node ∈ (List.range part.size).map place) =
      part.arranged.map place := by
  have hmem : ∀ node, node ∈ whole.arranged.filter
      (fun node => node ∈ (List.range part.size).map place) ↔
        node ∈ part.arranged.map place := by
    intro node
    simp only [List.mem_filter, decide_eq_true_eq, List.mem_map, List.mem_range, mem_arranged]
    constructor
    · exact And.right
    · rintro ⟨other, hother, rfl⟩
      exact ⟨hembeds.place_lt other hother, other, hother, rfl⟩
  have hplaced : (part.arranged.map place).Nodup :=
    part.arranged_nodup.map hembeds.strictMono.injective
  have hsorted : (part.arranged.map place).Pairwise fun a b => whole.precedes a b = true := by
    rw [List.pairwise_map]
    refine part.arranged_pairwise.imp_of_mem ?_
    intro a b ha hb hprecedes
    rwa [hembeds.precedes_place hforest hbounded (mem_arranged.mp ha) (mem_arranged.mp hb)]
  -- Both lists hold the same nodes and are sorted by the same order.
  have hperm := (List.perm_ext_iff_of_nodup (whole.arranged_nodup.filter _) hplaced).mpr hmem
  exact hperm.eq_of_pairwise (fun _ _ _ _ => precedes_antisymm)
    (whole.arranged_pairwise.filter _) hsorted

theorem named_embeds {part whole : List NamedLink} {place : Nat → Nat}
    (hmono : StrictMono place) (hplace : ∀ node : Nat, part[node]? = whole[place node]?)
    (hnames : (whole.map Prod.fst).Nodup) (hparents : ParentsNamed part) :
    (named part).Embeds (named whole) place where
  strictMono := hmono
  place_lt := by
    intro node hnode
    have hentry := List.getElem?_eq_getElem hnode
    rw [hplace] at hentry
    exact (List.getElem?_eq_some_iff.mp hentry).1
  parent?_place := by
    intro node hnode
    simp only [named, ← hplace]
    cases hparent : part[node]?.bind Prod.snd with
    | none => rfl
    | some parent =>
        obtain ⟨⟨child, _⟩, hentry, rfl⟩ := Option.bind_eq_some_iff.mp hparent
        have hmem := hparents child parent (List.mem_of_getElem? hentry)
        obtain ⟨index, hindex⟩ := Option.isSome_iff_exists.mp (List.isSome_idxOf?.mpr hmem)
        have hat : (part.map Prod.fst)[index]? = some parent := by
          rcases List.idxOf?_eq_some_iff.mp hindex with ⟨hlt, heq, -⟩
          exact List.getElem?_eq_some_iff.mpr ⟨hlt, heq⟩
        rw [List.getElem?_map, hplace, ← List.getElem?_map] at hat
        rw [Option.bind_some, Option.bind_some, hindex,
          (idxOf?_eq_some_iff_of_nodup hnames).mpr hat]
        rfl

theorem mem_names_iff_placed {part whole : List NamedLink} {place : Nat → Nat}
    (hplace : ∀ node : Nat, part[node]? = whole[place node]?)
    (hnames : (whole.map Prod.fst).Nodup) {node : Nat} {name : String}
    (hname : (whole.map Prod.fst)[node]? = some name) :
    name ∈ part.map Prod.fst ↔ node ∈ (List.range part.length).map place := by
  constructor
  · intro hmem
    obtain ⟨index, hindex⟩ := List.mem_iff_getElem?.mp hmem
    have hlt : index < part.length := by
      simpa using (List.getElem?_eq_some_iff.mp hindex).1
    rw [List.getElem?_map, hplace, ← List.getElem?_map] at hindex
    rw [← idxOf?_eq_some_iff_of_nodup hnames] at hname hindex
    have heq : place index = node := Option.some.inj (hindex.symm.trans hname)
    exact List.mem_map.mpr ⟨index, List.mem_range.mpr hlt, heq⟩
  · intro hmem
    obtain ⟨index, -, rfl⟩ := List.mem_map.mp hmem
    rw [List.getElem?_map, ← hplace, ← List.getElem?_map] at hname
    exact List.mem_of_getElem? hname

end Hierarchy

open Hierarchy

variable {α : Type} {link : α → NamedLink} {items : List α}

/-- A part that holds the parents of its items is listed alone as it is listed
in the whole. -/
theorem filter_compiledListing {part whole : List α} (hpart : part.Sublist whole)
    (hnames : ((whole.map link).map Prod.fst).Nodup) (hparents : ParentsNamed (part.map link))
    (hforest : (named (part.map link)).IsForest) :
    (compiledListing link whole).filter
        (fun item => (link item).1 ∈ (part.map link).map Prod.fst) =
      compiledListing link part := by
  obtain ⟨place, hplace⟩ := List.sublist_iff_exists_orderEmbedding_getElem?_eq.mp hpart
  have hlinks : ∀ node : Nat, (part.map link)[node]? = (whole.map link)[place node]? := by
    intro node
    rw [List.getElem?_map, List.getElem?_map, hplace]
  have hembeds := named_embeds place.strictMono hlinks hnames hparents
  have hfilter := hembeds.filter_arranged hforest (named_bounded (whole.map link))
  have hlisted : compiledListing link part =
      ((named (part.map link)).arranged.map place).filterMap fun node => whole[node]? := by
    rw [compiledListing, List.filterMap_map]
    simp only [hplace]
    rfl
  rw [hlisted, ← hfilter, List.filterMap_filter, compiledListing, List.filter_filterMap]
  apply List.filterMap_congr
  intro node hnode
  rw [mem_arranged, size_named, List.length_map] at hnode
  have hname : ((whole.map link).map Prod.fst)[node]? = some (link whole[node]).1 := by
    simp [hnode]
  rw [List.getElem?_eq_getElem hnode, Option.filter_some, size_named]
  simp only [mem_names_iff_placed hlinks hnames hname]

/-- Every parent name is carried by an entry that comes earlier. -/
def ParentsFirst (entries : List NamedLink) : Prop :=
  ∀ before child parent after, entries = before ++ (child, some parent) :: after →
    parent ∈ before.map Prod.fst

theorem ParentsFirst.isInverted_eq_false {entries : List NamedLink}
    (hfirst : ParentsFirst entries) (hnames : (entries.map Prod.fst).Nodup) (node : Nat) :
    (named entries).isInverted node = false := by
  unfold isInverted
  cases hother : (named entries).parent? node with
  | none => rfl
  | some other =>
      obtain ⟨child, parent, hentry, hparent⟩ := (named_inherits_iff hnames).mp hother
      obtain ⟨hnode, hat⟩ := List.getElem?_eq_some_iff.mp hentry
      have hsplit : entries = entries.take node ++ (child, some parent) ::
          entries.drop (node + 1) := by
        rw [← hat, List.getElem_cons_drop, List.take_append_drop]
      have hmem := hfirst _ _ _ _ hsplit
      obtain ⟨earlier, hearlier⟩ := List.mem_iff_getElem?.mp hmem
      have hlt : earlier < node := by
        have hbound := (List.getElem?_eq_some_iff.mp hearlier).1
        simp only [List.length_map, List.length_take] at hbound
        omega
      rw [List.map_take, List.getElem?_take_of_lt hlt] at hearlier
      rw [← idxOf?_eq_some_iff_of_nodup hnames] at hearlier hparent
      have heq : earlier = other := Option.some.inj (hearlier.symm.trans hparent)
      simp only [decide_eq_false_iff_not]
      omega

theorem ParentsFirst.compiledListing_eq (hfirst : ParentsFirst (items.map link))
    (hnames : ((items.map link).map Prod.fst).Nodup) : compiledListing link items = items := by
  rw [compiledListing, arranged_eq_range (hfirst.isInverted_eq_false hnames), size_named,
    List.length_map, filterMap_getElem?_range_length]

theorem parentsFirst_compiledListing (hnames : ((items.map link).map Prod.fst).Nodup)
    (hparents : ParentsNamed (items.map link)) (hforest : (named (items.map link)).IsForest) :
    ParentsFirst ((compiledListing link items).map link) := by
  intro before child parent after hlisting
  obtain ⟨earlier, rest, hitems, rfl, hrest⟩ := List.map_eq_append_iff.mp hlisting
  obtain ⟨item, later, rfl, hitem, -⟩ := List.map_eq_cons_iff.mp hrest
  have hmem : item ∈ items := by
    rw [← (compiledListing_perm link items).mem_iff, hitems]
    exact List.mem_append_right _ List.mem_cons_self
  have hinherits : InheritsName (items.map link) child parent :=
    List.mem_map.mpr ⟨item, hmem, hitem⟩
  have hknown := hparents child parent hinherits
  exact parent_mem_of_compiledListing_eq hnames hforest hitems (by rw [hitem]) hknown

end ErrorTaxonomy
