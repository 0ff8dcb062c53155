import ErrorTaxonomy.Proofs.LosslessDocument
import ErrorTaxonomy.Proofs.RunView

/-!
# Checks are faithful

A run that only checks goes through the stages of one that writes, up to the emission,
and no compiled model fails to be emitted: its ancestors come to an end, and its document
can be written.  So the check fails if and only if the run that writes
fails before its writing, with the same error, and after a check that has passed nothing
but the writing can go wrong.
-/

namespace ErrorTaxonomy

/-! ## The stages before the writing -/

/-- The fragments of the input directory, by the suffixes of the configuration that is
found. -/
structure FindsFragments (arguments : Arguments) (host : Host)
    (configuration : Configuration) (fragments : List Fragment) : Prop where
  found : (findConfiguration host arguments.config).outcome = .ok configuration
  loaded :
    (loadDirectory host.tree
      { path := arguments.input, suffixes := configuration.suffixes }).outcome = .ok fragments

def CompilesTo (arguments : Arguments) (host : Host) (model : Model) : Prop :=
  ∃ configuration fragments, FindsFragments arguments host configuration fragments ∧
    (compile configuration.ordering fragments).outcome = .ok model

/-- The stages at which a run may stop with nothing to write yet, each reached only if
those before it succeed. -/
inductive FailsBeforeWriting (arguments : Arguments) (host : Host) : RunError → Prop
  | configuration {error : ConfigurationError} :
      (findConfiguration host arguments.config).outcome = .error error →
        FailsBeforeWriting arguments host (.configuration error)
  | loading {configuration : Configuration} {error : LoadError} :
      (findConfiguration host arguments.config).outcome = .ok configuration →
        (loadDirectory host.tree
          { path := arguments.input, suffixes := configuration.suffixes }).outcome =
            .error error →
        FailsBeforeWriting arguments host (.taxonomy (.load error))
  | compilation {configuration : Configuration} {fragments : List Fragment}
      {error : CompileError} :
      FindsFragments arguments host configuration fragments →
        (compile configuration.ordering fragments).outcome = .error error →
        FailsBeforeWriting arguments host (.taxonomy (.compile error))
  | emission {model : Model} {rendered : Traced TaxonomyError String}
      {error : TaxonomyError} :
      CompilesTo arguments host model → renderJson model = some rendered →
        rendered.outcome = .error error →
        FailsBeforeWriting arguments host (.taxonomy error)

section Stages

variable {arguments : Arguments} {host : Host}

theorem outcome_compileInput_of_found {configuration : Configuration}
    (hfound : (findConfiguration host arguments.config).outcome = .ok configuration) :
    (compileInput arguments host).outcome =
      (compileDirectory configuration host.tree arguments.input).outcome.mapError
        .taxonomy := by
  rw [outcome_compileInput, hfound]
  rfl

theorem FindsFragments.outcome_compileInput {configuration : Configuration}
    {fragments : List Fragment}
    (hfragments : FindsFragments arguments host configuration fragments) :
    (compileInput arguments host).outcome =
      ((compile configuration.ordering fragments).outcome.mapError
        TaxonomyError.compile).mapError .taxonomy := by
  rw [outcome_compileInput_of_found hfragments.found, outcome_compileDirectory,
    hfragments.loaded]
  rfl

theorem compileInput_eq_ok_iff {model : Model} :
    (compileInput arguments host).outcome = .ok model ↔ CompilesTo arguments host model := by
  constructor
  · intro hmodel
    obtain ⟨configuration, hfound, hcompiled⟩ := compileInput_eq_ok hmodel
    obtain ⟨fragments, hloaded, hcompiled⟩ := compileDirectory_eq_ok_iff.mp hcompiled
    exact ⟨configuration, fragments, ⟨hfound, hloaded⟩, hcompiled⟩
  · intro hmodel
    rcases hmodel with ⟨configuration, fragments, hfragments, hcompiled⟩
    rw [hfragments.outcome_compileInput, hcompiled]
    rfl

theorem compileInput_eq_error_iff {error : RunError} :
    (compileInput arguments host).outcome = .error error ↔
      FailsBeforeWriting arguments host error := by
  constructor
  · intro hfailed
    rw [outcome_compileInput, bind_eq_error_iff] at hfailed
    rcases hfailed with hfailed | ⟨configuration, hfound, hfailed⟩
    · obtain ⟨cause, hcause, rfl⟩ := mapError_eq_error_iff.mp hfailed
      exact .configuration hcause
    · have hfound := mapError_eq_ok_iff.mp hfound
      obtain ⟨cause, hcause, rfl⟩ := mapError_eq_error_iff.mp hfailed
      rw [outcome_compileDirectory, bind_eq_error_iff] at hcause
      rcases hcause with hcause | ⟨fragments, hloaded, hcause⟩
      · obtain ⟨origin, horigin, rfl⟩ := mapError_eq_error_iff.mp hcause
        exact .loading hfound horigin
      · obtain ⟨origin, horigin, rfl⟩ := mapError_eq_error_iff.mp hcause
        exact .compilation ⟨hfound, mapError_eq_ok_iff.mp hloaded⟩ horigin
  · intro hfails
    cases hfails with
    | configuration hfailed =>
        rw [outcome_compileInput, hfailed]
        rfl
    | loading hfound hfailed =>
        rw [outcome_compileInput_of_found hfound, outcome_compileDirectory, hfailed]
        rfl
    | compilation hfragments hfailed =>
        rw [hfragments.outcome_compileInput, hfailed]
        rfl
    | emission _ hrendered hfailed =>
        -- what is rendered to its end has a text
        obtain ⟨text, htext⟩ := exists_text_of_renderJson hrendered
        cases htext.symm.trans hfailed

theorem CompilesTo.chainsEnd {model : Model} (hmodel : CompilesTo arguments host model) :
    model.ChainsEnd := by
  obtain ⟨configuration, fragments, -, hcompiled⟩ := hmodel
  exact chainsEnd_of_compile hcompiled

theorem CompilesTo.unique {model other : Model} (hmodel : CompilesTo arguments host model)
    (hother : CompilesTo arguments host other) : model = other := by
  rw [← compileInput_eq_ok_iff] at hmodel hother
  exact Except.ok.inj (hmodel.symm.trans hother)

namespace FailsBeforeWriting

variable {error : RunError} (hfails : FailsBeforeWriting arguments host error)

include hfails

theorem unique {error' : RunError} (hfails' : FailsBeforeWriting arguments host error') :
    error = error' := by
  rw [← compileInput_eq_error_iff] at hfails hfails'
  exact Except.error.inj (hfails.symm.trans hfails')

theorem not_compilesTo (model : Model) : ¬ CompilesTo arguments host model := by
  intro hmodel
  rw [← compileInput_eq_error_iff] at hfails
  rw [← compileInput_eq_ok_iff, hfails] at hmodel
  cases hmodel

theorem ne_output (path : String) (fault : SystemFault) : error ≠ .output path fault := by
  cases hfails <;> exact RunError.noConfusion

end FailsBeforeWriting

/-! ## The ends of a run -/

/-- The ways in which a run ends, by the stage that it has come to. -/
inductive Ends (arguments : Arguments) (host : Host) (result : RunResult) : Prop
  | failed {error : RunError} :
      FailsBeforeWriting arguments host error → result.progress.outcome = .error error →
        Ends arguments host result
  | checked {model : Model} :
      arguments.check = true → CompilesTo arguments host model →
        result.progress.outcome = .ok () → Ends arguments host result
  | exported {model : Model} {text : String} :
      arguments.check = false → CompilesTo arguments host model →
        Emits .pretty model text → ComesToWrite arguments.output text result →
        Ends arguments host result

theorem exists_ends (arguments : Arguments) (host : Host) :
    ∃ result, run arguments host = some result ∧ Ends arguments host result := by
  obtain ⟨prepared, hprepared, hfrom⟩ := exists_prepareRun arguments host
  refine ⟨_, run_of_prepareRun hprepared, ?_⟩
  generalize hcompiled : (compileInput arguments host).outcome = compiled at hfrom
  generalize houtcome : prepared.outcome = outcome at hfrom
  cases hfrom with
  | failed error =>
      exact .failed (compileInput_eq_error_iff.mp hcompiled) (finishRun_of_failed houtcome).1
  | checked hcheck =>
      exact .checked hcheck (compileInput_eq_ok_iff.mp hcompiled)
        (finishRun_of_checked houtcome).1
  | rendered hexports hemits =>
      exact .exported hexports (compileInput_eq_ok_iff.mp hcompiled) hemits
        (comesToWrite_of_rendered arguments host houtcome)

namespace Ends

variable {result : RunResult} (hends : Ends arguments host result)

include hends

theorem outcome_of_fails {error : RunError}
    (hfails : FailsBeforeWriting arguments host error) :
    result.progress.outcome = .error error := by
  cases hends with
  | failed hfails' hfailed => rw [hfailed, hfails'.unique hfails]
  | checked _ hmodel _ => exact absurd hmodel (hfails.not_compilesTo _)
  | exported _ hmodel _ _ => exact absurd hmodel (hfails.not_compilesTo _)

/-- A run that fails has failed before the writing, or had a text and failed to write
it. -/
theorem fails_or_output {error : RunError}
    (hfailed : result.progress.outcome = .error error) :
    FailsBeforeWriting arguments host error ∨
      (arguments.check = false ∧ ∃ fault, error = .output arguments.output fault) := by
  cases hends with
  | failed hfails hfailed' =>
      rw [← Except.error.inj (hfailed'.symm.trans hfailed)]
      exact .inl hfails
  | checked _ _ hpassed => cases hpassed.symm.trans hfailed
  | exported hexports _ _ hwrites =>
      rcases hwrites with ⟨fault, hwritten⟩ | ⟨hwritten, -⟩
      · have hcause := Except.error.inj (hwritten.symm.trans hfailed)
        exact .inr ⟨hexports, fault, hcause.symm⟩
      · cases hwritten.symm.trans hfailed

theorem failed_iff {error : RunError} :
    (result.progress.outcome = .error error ∧ ∀ path fault, error ≠ .output path fault) ↔
      FailsBeforeWriting arguments host error := by
  constructor
  · intro hfailed
    rcases hends.fails_or_output hfailed.1 with hfails | ⟨-, fault, herror⟩
    · exact hfails
    · exact absurd herror (hfailed.2 _ fault)
  · intro hfails
    exact ⟨hends.outcome_of_fails hfails, hfails.ne_output⟩

theorem failed_iff_of_check (hcheck : arguments.check = true) {error : RunError} :
    result.progress.outcome = .error error ↔ FailsBeforeWriting arguments host error := by
  constructor
  · intro hfailed
    rcases hends.fails_or_output hfailed with hfails | ⟨hexports, -⟩
    · exact hfails
    · rw [hcheck] at hexports
      cases hexports
  · exact hends.outcome_of_fails

theorem exists_compilesTo (hpassed : result.progress.outcome = .ok ()) :
    ∃ model, CompilesTo arguments host model := by
  cases hends with
  | failed _ hfailed => cases hfailed.symm.trans hpassed
  | checked _ hmodel _ => exact ⟨_, hmodel⟩
  | exported _ hmodel _ _ => exact ⟨_, hmodel⟩

theorem comesToWrite (hexports : arguments.check = false) {model : Model}
    (hmodel : CompilesTo arguments host model) :
    ∃ text, Emits .pretty model text ∧ ComesToWrite arguments.output text result := by
  cases hends with
  | failed hfails _ => exact absurd hmodel (hfails.not_compilesTo model)
  | checked hcheck _ _ =>
      rw [hcheck] at hexports
      cases hexports
  | exported _ hmodel' hemits hwrites =>
      rw [hmodel'.unique hmodel] at hemits
      exact ⟨_, hemits, hwrites⟩

end Ends

end Stages

/-! ## A check and a run -/

/-- A run that only checks, next to one that writes.  Both stop at the same stage before
the writing, and emission is none of these stages: each model that the definitions make
has a text.  Where there is such a model the check passes, and the run that writes comes
to write its text, which says all of it. -/
structure Foretells (arguments : Arguments) (host : Host) (checked exported : RunResult) :
    Prop where
  checked_failed_iff : ∀ error,
    checked.progress.outcome = .error error ↔ FailsBeforeWriting arguments host error
  exported_failed_iff : ∀ error,
    (exported.progress.outcome = .error error ∧ ∀ path fault, error ≠ .output path fault) ↔
      FailsBeforeWriting arguments host error
  emission_succeeds : ∀ model, CompilesTo arguments host model →
    ∃ rendered text, renderJson model = some rendered ∧ rendered.outcome = .ok text
  passed : checked.progress.outcome = .ok () →
    ∃ model rendered text entries, CompilesTo arguments host model ∧
      renderJson model = some rendered ∧ rendered.outcome = .ok text ∧
      model.entries? = some entries ∧ Json.Denotes text.toList (documentOf entries) ∧
      ComesToWrite arguments.output text exported

theorem outcome_compileInput_check (arguments : Arguments) (host : Host) (check : Bool) :
    (compileInput { arguments with check } host).outcome =
      (compileInput arguments host).outcome := by
  rw [outcome_compileInput, outcome_compileInput]

theorem failsBeforeWriting_check_iff {arguments : Arguments} {host : Host}
    {error : RunError} (check : Bool) :
    FailsBeforeWriting { arguments with check } host error ↔
      FailsBeforeWriting arguments host error := by
  rw [← compileInput_eq_error_iff, ← compileInput_eq_error_iff, outcome_compileInput_check]

theorem compilesTo_check_iff {arguments : Arguments} {host : Host} {model : Model}
    (check : Bool) :
    CompilesTo { arguments with check } host model ↔ CompilesTo arguments host model := by
  rw [← compileInput_eq_ok_iff, ← compileInput_eq_ok_iff, outcome_compileInput_check]

theorem check_foretells (arguments : Arguments) (host : Host) :
    ∃ checked exported, run { arguments with check := true } host = some checked ∧
      run { arguments with check := false } host = some exported ∧
      Foretells arguments host checked exported := by
  obtain ⟨checked, hchecked, hends⟩ := exists_ends { arguments with check := true } host
  obtain ⟨exported, hexported, hends'⟩ := exists_ends { arguments with check := false } host
  refine ⟨checked, exported, hchecked, hexported, ?_, ?_, ?_, ?_⟩
  · intro error
    rw [hends.failed_iff_of_check rfl, failsBeforeWriting_check_iff]
  · intro error
    rw [hends'.failed_iff, failsBeforeWriting_check_iff]
  · intro model hmodel
    obtain ⟨text, hemits⟩ := exists_emits .pretty hmodel.chainsEnd
    obtain ⟨rendered, hrendered, htext⟩ := hemits.exists_renderJson
    exact ⟨rendered, text, hrendered, htext⟩
  · intro hpassed
    obtain ⟨model, hmodel⟩ := hends.exists_compilesTo hpassed
    rw [compilesTo_check_iff] at hmodel
    obtain ⟨text, hemits, hwrites⟩ :=
      hends'.comesToWrite rfl ((compilesTo_check_iff false).mpr hmodel)
    obtain ⟨rendered, hrendered, htext⟩ := hemits.exists_renderJson
    obtain ⟨entries, hentries, rfl⟩ := emits_iff.mp hemits
    exact ⟨model, rendered, _, entries, hmodel, hrendered, htext, hentries,
      Layout.pretty.denotes_text (wellWritten_documentOf entries), hwrites⟩

end ErrorTaxonomy
