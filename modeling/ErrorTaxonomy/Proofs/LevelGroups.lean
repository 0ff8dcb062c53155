import ErrorTaxonomy.Model
import Mathlib.Data.List.Basic

/-!
# Groups by level

A definition that is put into the groups of others goes to the end of the group of its
level, or begins that group between those of more and of less severe levels.  So the
groups of a model are what is left of it for each level that occurs, and one after the
other they are the model sorted by severity, where definitions of one level keep their
order.
-/

namespace ErrorTaxonomy

def ofLevel (level : Level) (definitions : List Definition) : List Definition :=
  definitions.filter fun definition => definition.level = level

/-- The groups of the given levels that are not empty. -/
def groupsOf (definitions : List Definition) : List Level → List (Level × List Definition)
  | [] => []
  | level :: levels =>
      if ofLevel level definitions = [] then groupsOf definitions levels
      else (level, ofLevel level definitions) :: groupsOf definitions levels

def moreSevere (definition other : Definition) : Bool :=
  definition.level.priority ≤ other.level.priority

section

variable {level : Level} {levels : List Level} {definition : Definition}
  {definitions : List Definition} {group : Level × List Definition}

theorem ofLevel_append_of_eq (hlevel : definition.level = level) :
    ofLevel level (definitions ++ [definition]) = ofLevel level definitions ++ [definition] := by
  simp [ofLevel, hlevel]

theorem ofLevel_append_of_ne (hlevel : definition.level ≠ level) :
    ofLevel level (definitions ++ [definition]) = ofLevel level definitions := by
  simp [ofLevel, hlevel]

theorem mem_groupsOf :
    group ∈ groupsOf definitions levels ↔
      group.1 ∈ levels ∧ group.2 = ofLevel group.1 definitions ∧ group.2 ≠ [] := by
  induction levels with
  | nil => simp [groupsOf]
  | cons level levels ih =>
      cases group with
      | mk other members =>
          by_cases hempty : ofLevel level definitions = []
          · rw [groupsOf, if_pos hempty, ih]
            constructor
            · intro hgroup
              exact ⟨List.mem_cons_of_mem level hgroup.1, hgroup.2⟩
            · intro hgroup
              rcases List.mem_cons.mp hgroup.1 with hother | hother
              · simp_all
              · exact ⟨hother, hgroup.2⟩
          · rw [groupsOf, if_neg hempty, List.mem_cons, ih]
            simp only [Prod.mk.injEq, List.mem_cons]
            constructor
            · intro hgroup
              rcases hgroup with hgroup | hgroup
              · simp_all
              · exact ⟨.inr hgroup.1, hgroup.2⟩
            · intro hgroup
              rcases hgroup.1 with hother | hother
              · simp_all
              · exact .inr ⟨hother, hgroup.2⟩

theorem groupsOf_append_of_notMem (hlevel : definition.level ∉ levels) :
    groupsOf (definitions ++ [definition]) levels = groupsOf definitions levels := by
  induction levels with
  | nil => rfl
  | cons level levels ih =>
      rw [List.mem_cons, not_or] at hlevel
      rw [groupsOf, groupsOf, ofLevel_append_of_ne hlevel.1, ih hlevel.2]

/-- A definition of a more severe level than all groups begins a group in front of them. -/
theorem addToGroup_of_forall_lt
    (hless : ∀ level ∈ levels, definition.level.priority < level.priority) :
    Model.addToGroup definition (groupsOf definitions levels) =
      (definition.level, [definition]) :: groupsOf definitions levels := by
  cases hgroups : groupsOf definitions levels with
  | nil => rfl
  | cons group groups =>
      have hgroup : group ∈ groupsOf definitions levels := by
        rw [hgroups]
        exact List.mem_cons_self
      have hlt := hless group.1 (mem_groupsOf.mp hgroup).1
      have hne : group.1 ≠ definition.level := by
        intro heq
        rw [heq] at hlt
        omega
      rw [Model.addToGroup, if_neg hne, if_pos hlt]

theorem addToGroup_groupsOf
    (hlevels : levels.Pairwise fun level next => level.priority < next.priority)
    (hlevel : definition.level ∈ levels) :
    Model.addToGroup definition (groupsOf definitions levels) =
      groupsOf (definitions ++ [definition]) levels := by
  induction levels with
  | nil => simp at hlevel
  | cons level levels ih =>
      rcases List.pairwise_cons.mp hlevels with ⟨hfirst, hrest⟩
      rw [groupsOf, groupsOf]
      by_cases heq : definition.level = level
      · have hnotMem : definition.level ∉ levels := by
          intro hmem
          have hlt := hfirst definition.level hmem
          rw [heq] at hlt
          omega
        rw [ofLevel_append_of_eq heq, groupsOf_append_of_notMem hnotMem]
        by_cases hempty : ofLevel level definitions = []
        · rw [← heq] at hfirst
          rw [if_pos hempty, addToGroup_of_forall_lt hfirst]
          simp [hempty, heq]
        · rw [if_neg hempty, Model.addToGroup, if_pos heq.symm]
          simp
      · have hmem : definition.level ∈ levels := (List.mem_cons.mp hlevel).resolve_left heq
        have hlt := hfirst definition.level hmem
        rw [ofLevel_append_of_ne heq]
        by_cases hempty : ofLevel level definitions = []
        · rw [if_pos hempty, if_pos hempty, ih hrest hmem]
        · rw [if_neg hempty, if_neg hempty, Model.addToGroup, if_neg (Ne.symm heq),
            if_neg (by omega), ih hrest hmem]

end

theorem Level.pairwise_all : all.Pairwise fun level next => level.priority < next.priority := by
  decide

theorem Model.byLevel_eq (model : Model) :
    model.byLevel = groupsOf model.definitions Level.all := by
  have hfold : ∀ rest done : List Definition,
      rest.foldl (fun groups definition => addToGroup definition groups)
        (groupsOf done Level.all) = groupsOf (done ++ rest) Level.all := by
    intro rest
    induction rest with
    | nil => simp
    | cons definition rest ih =>
        intro done
        rw [List.foldl_cons, addToGroup_groupsOf Level.pairwise_all (Level.mem_all _), ih]
        simp
  exact hfold model.definitions []

/-! ## Sorting by severity -/

section

variable {definitions others : List Definition}

theorem moreSevere_trans (a b c : Definition) (hab : moreSevere a b = true)
    (hbc : moreSevere b c = true) : moreSevere a c = true := by
  simp only [moreSevere, decide_eq_true_eq] at hab hbc ⊢
  omega

theorem moreSevere_total (a b : Definition) : (moreSevere a b || moreSevere b a) = true := by
  simp only [moreSevere, Bool.or_eq_true, decide_eq_true_eq]
  omega

theorem pairwise_ofLevel (level : Level) (definitions : List Definition) :
    (ofLevel level definitions).Pairwise fun a b => moreSevere a b = true := by
  apply List.pairwise_of_forall_mem_list
  intro a ha b hb
  simp only [ofLevel, List.mem_filter, decide_eq_true_eq] at ha hb
  simp [moreSevere, ha.2, hb.2]

/-- Sorting keeps the order of the definitions of one level. -/
theorem ofLevel_mergeSort (level : Level) (definitions : List Definition) :
    ofLevel level (definitions.mergeSort moreSevere) = ofLevel level definitions := by
  have hsorted := pairwise_ofLevel level definitions
  have hsub : (ofLevel level definitions).Sublist (definitions.mergeSort moreSevere) :=
    List.sublist_mergeSort moreSevere_trans moreSevere_total hsorted List.filter_sublist
  have hfilter := hsub.filter fun definition => definition.level = level
  simp only [ofLevel, List.filter_filter, Bool.and_self] at hfilter
  have hlength := ((List.mergeSort_perm definitions moreSevere).filter
    fun definition => definition.level = level).length_eq
  exact (hfilter.eq_of_length hlength.symm).symm

theorem mem_of_ofLevel_eq (hlevels : ∀ level, ofLevel level definitions = ofLevel level others)
    {definition : Definition} (hmem : definition ∈ definitions) : definition ∈ others := by
  have hlevel : definition ∈ ofLevel definition.level definitions := by
    simpa [ofLevel] using hmem
  rw [hlevels] at hlevel
  exact List.mem_of_mem_filter hlevel

theorem priority_le_of_mem {first definition : Definition}
    (hsorted : (first :: definitions).Pairwise fun a b => moreSevere a b = true)
    (hmem : definition ∈ first :: definitions) :
    first.level.priority ≤ definition.level.priority := by
  rcases List.mem_cons.mp hmem with hfirst | hrest
  · exact Nat.le_of_eq (by rw [hfirst])
  · have hle := (List.pairwise_cons.mp hsorted).1 definition hrest
    simpa [moreSevere] using hle

/-- What is sorted by severity is determined by its definitions of each level. -/
theorem eq_of_ofLevel_eq
    (hsorted : definitions.Pairwise fun a b => moreSevere a b = true)
    (hothers : others.Pairwise fun a b => moreSevere a b = true)
    (hlevels : ∀ level, ofLevel level definitions = ofLevel level others) :
    definitions = others := by
  induction definitions generalizing others with
  | nil =>
      cases others with
      | nil => rfl
      | cons other others =>
          have hmem := mem_of_ofLevel_eq (fun level => (hlevels level).symm)
            (List.mem_cons_self (a := other))
          simp at hmem
  | cons definition definitions ih =>
      cases others with
      | nil =>
          have hmem := mem_of_ofLevel_eq hlevels (List.mem_cons_self (a := definition))
          simp at hmem
      | cons other others =>
          have hle := priority_le_of_mem hothers
            (mem_of_ofLevel_eq hlevels List.mem_cons_self)
          have hge := priority_le_of_mem hsorted
            (mem_of_ofLevel_eq (fun level => (hlevels level).symm) List.mem_cons_self)
          have hlevel : definition.level = other.level :=
            Level.priority_injective (by omega)
          have hheads := hlevels other.level
          simp only [ofLevel, List.filter_cons, hlevel, decide_true, if_true,
            List.cons.injEq] at hheads
          have hrest : ∀ level, ofLevel level definitions = ofLevel level others := by
            intro level
            have heads := hlevels level
            by_cases hsame : other.level = level
            · rw [← hsame]
              exact hheads.2
            · simpa [ofLevel, List.filter_cons, hlevel, hsame] using heads
          rw [hheads.1, ih (List.pairwise_cons.mp hsorted).2
            (List.pairwise_cons.mp hothers).2 hrest]

end

/-! ## The groups of a model -/

theorem flatMap_groupsOf (definitions : List Definition) (levels : List Level) :
    (groupsOf definitions levels).flatMap Prod.snd =
      levels.flatMap fun level => ofLevel level definitions := by
  induction levels with
  | nil => rfl
  | cons level levels ih =>
      rw [groupsOf, List.flatMap_cons]
      by_cases hempty : ofLevel level definitions = []
      · rw [if_pos hempty, ih, hempty, List.nil_append]
      · rw [if_neg hempty, List.flatMap_cons, ih]

theorem pairwise_groupsOf {definitions : List Definition} {levels : List Level}
    (hlevels : levels.Pairwise fun level next => level.priority < next.priority) :
    (groupsOf definitions levels).Pairwise fun group next =>
      group.1.priority < next.1.priority := by
  induction levels with
  | nil => exact .nil
  | cons level levels ih =>
      rcases List.pairwise_cons.mp hlevels with ⟨hfirst, hrest⟩
      rw [groupsOf]
      by_cases hempty : ofLevel level definitions = []
      · rw [if_pos hempty]
        exact ih hrest
      · rw [if_neg hempty, List.pairwise_cons]
        constructor
        · intro group hgroup
          exact hfirst group.1 (mem_groupsOf.mp hgroup).1
        · exact ih hrest

theorem ofLevel_flatMap (level : Level) (levels : List Level) (part : Level → List Definition) :
    ofLevel level (levels.flatMap part) = levels.flatMap fun other => ofLevel level (part other) :=
  List.filter_flatMap

theorem flatMap_ofLevel_eq_mergeSort (definitions : List Definition) :
    (Level.all.flatMap fun level => ofLevel level definitions) =
      definitions.mergeSort moreSevere := by
  apply eq_of_ofLevel_eq
  · rw [List.pairwise_flatMap]
    constructor
    · intro level _
      exact pairwise_ofLevel level definitions
    · apply Level.pairwise_all.imp
      intro level next hlt definition hdefinition other hother
      simp only [ofLevel, List.mem_filter, decide_eq_true_eq] at hdefinition hother
      simp only [moreSevere, hdefinition.2, hother.2, decide_eq_true_eq]
      exact Nat.le_of_lt hlt
  · exact List.pairwise_mergeSort moreSevere_trans moreSevere_total definitions
  · intro level
    have hpart : ∀ other, ofLevel level (ofLevel other definitions) =
        if other = level then ofLevel level definitions else [] := by
      intro other
      by_cases heq : other = level
      · simp [ofLevel, heq]
      · rw [if_neg heq, ofLevel, List.filter_eq_nil_iff]
        intro definition hmem
        simp only [ofLevel, List.mem_filter, decide_eq_true_eq] at hmem
        simpa [hmem.2] using heq
    rw [ofLevel_mergeSort, ofLevel_flatMap]
    simp only [hpart]
    cases level <;> simp [Level.all]

/-- Groups of definitions that are all of one level, the most severe first, and together
are the definitions sorted by severity. -/
structure Regroups (definitions : List Definition) (groups : List (Level × List Definition)) :
    Prop where
  ascending : groups.Pairwise fun group next => group.1.priority < next.1.priority
  filled : ∀ group ∈ groups, group.2 ≠ []
  members_eq : ∀ group ∈ groups,
    group.2 = definitions.filter fun definition => definition.level = group.1
  sorted : groups.flatMap Prod.snd =
    definitions.mergeSort fun a b => a.level.priority ≤ b.level.priority
  complete : (groups.flatMap Prod.snd).Perm definitions

theorem byLevel_regroups (model : Model) : Regroups model.definitions model.byLevel := by
  rw [Model.byLevel_eq]
  have hsorted : (groupsOf model.definitions Level.all).flatMap Prod.snd =
      model.definitions.mergeSort moreSevere := by
    rw [flatMap_groupsOf, flatMap_ofLevel_eq_mergeSort]
  exact {
    ascending := pairwise_groupsOf Level.pairwise_all
    filled := fun group hgroup => (mem_groupsOf.mp hgroup).2.2
    members_eq := fun group hgroup => (mem_groupsOf.mp hgroup).2.1
    sorted := hsorted
    complete := by
      rw [hsorted]
      exact List.mergeSort_perm model.definitions moreSevere
  }

end ErrorTaxonomy
