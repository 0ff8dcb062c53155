import ErrorTaxonomy.Compilation
import ErrorTaxonomy.Proofs.FirstViolation
import ErrorTaxonomy.Proofs.GraphConstruction
import ErrorTaxonomy.Proofs.RootedWalk

/-!
# Agreement of the ordering strategies

A graph that has been built is a forest whose link tables agree, so both
strategies end in the arrangement by inversions, and so does the shortcut for
graphs without any parent.  The stages before the ordering do not know the
strategy and the stage after it only sees the order, hence the outcome of a
compilation is the same for both strategies, errors included.
-/

namespace ErrorTaxonomy

namespace InheritanceGraph

variable {graph : InheritanceGraph}

theorem arrange_eq (hforest : graph.hierarchy.IsForest) (hlinked : graph.WellLinked)
    (strategy : OrderingStrategy) :
    graph.arrange strategy =
      .ok { nodes := graph.hierarchy.arranged, passes := graph.hierarchy.passes } := by
  cases strategy with
  | queue => exact arrangeByQueue_eq hforest hlinked
  | multiPass => exact arrangeByScanning_eq hforest

theorem parent?_of_flat (hflat : graph.hasInheritance = false) (node : Nat) :
    graph.parent? node = none := by
  rw [hasInheritance, List.any_eq_false] at hflat
  unfold parent?
  cases hentry : graph.links.parents[node]? with
  | none => rfl
  | some entry =>
      have hentry := hflat entry (List.mem_of_getElem? hentry)
      rwa [Option.isSome_iff_ne_none, Decidable.not_not] at hentry

theorem range_eq_arranged_of_flat (hflat : graph.hasInheritance = false) :
    List.range graph.size = graph.hierarchy.arranged := by
  symm
  apply Hierarchy.arranged_eq_range
  intro node
  have hparent : graph.hierarchy.parent? node = none := parent?_of_flat hflat node
  simp [Hierarchy.isInverted, hparent]

theorem outcome_order (hforest : graph.hierarchy.IsForest) (hlinked : graph.WellLinked)
    (strategy : OrderingStrategy) :
    (graph.order strategy).outcome = .ok graph.hierarchy.arranged := by
  unfold order
  by_cases hinheritance : graph.hasInheritance = true
  · rw [if_pos hinheritance, Traced.outcome_bind, Traced.outcome_ofExcept,
      arrange_eq hforest hlinked]
    rfl
  · rw [if_neg hinheritance,
      range_eq_arranged_of_flat (Bool.eq_false_iff.mpr hinheritance)]
    rfl

end InheritanceGraph

theorem map_name_of_leaves {encounters : List Encounter} {pending : List PendingError}
    (hleaves : List.Forall₂ Encounter.Leaves encounters pending) :
    pending.map PendingError.name = encounters.map Encounter.name :=
  map_eq_map_of_forall₂ (fun _ _ hleaves => hleaves.name_eq) hleaves.flip

theorem nodup_names_of_validateAll {encounters : List Encounter}
    {pending : List PendingError}
    (hvalid : (validateAll [] encounters).outcome = .ok pending) :
    (pending.map PendingError.name).Nodup := by
  rcases outcome_validateAll_eq_ok_iff.mp hvalid with ⟨hnodup, -, hleaves⟩
  rwa [map_name_of_leaves hleaves]

/-- The stages of a compilation, with the arrangement in place of the order. -/
theorem outcome_compile (strategy : OrderingStrategy) (fragments : List Fragment) :
    (compile strategy fragments).outcome =
      ((validateAll [] (encounters fragments)).outcome >>= fun pending =>
        InheritanceGraph.build pending >>= fun graph =>
          definitionsInOrder pending graph.hierarchy.arranged >>= fun definitions =>
            .ok (Model.ofDefinitions definitions)) := by
  simp only [compile, validate, Traced.outcome_bind, Traced.outcome_note,
    Traced.outcome_ofExcept, Traced.outcome_pure]
  cases hvalid : (validateAll [] (encounters fragments)).outcome with
  | error error => rfl
  | ok pending =>
      change (InheritanceGraph.build pending >>= fun graph => _) =
        (InheritanceGraph.build pending >>= fun graph => _)
      cases hbuild : InheritanceGraph.build pending with
      | error error => rfl
      | ok graph =>
          have hnames := nodup_names_of_validateAll hvalid
          rcases (InheritanceGraph.build_eq_ok_iff hnames).mp hbuild with ⟨-, hforest, rfl⟩
          rw [← InheritanceGraph.hierarchy_linked] at hforest
          have horder := InheritanceGraph.outcome_order hforest
            (InheritanceGraph.wellLinked_linked pending) strategy
          change (((InheritanceGraph.linked pending).order strategy).outcome >>=
            fun nodes => _) = _
          rw [horder]
          rfl

/-- Both strategies give the same outcome, a model or an error. -/
theorem outcome_compile_queue_eq_multiPass (fragments : List Fragment) :
    (compile .queue fragments).outcome = (compile .multiPass fragments).outcome := by
  rw [outcome_compile, outcome_compile]

end ErrorTaxonomy
