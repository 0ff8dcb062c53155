import ErrorTaxonomy.Proofs.Emission
import ErrorTaxonomy.Proofs.FileEntries
import ErrorTaxonomy.Run

/-!
# Runs are atomic

A run computes all that it has to write before it touches any file.  It always gets that
far, since it emits a compiled model only, in which all ancestors end.  Writing then
either puts the whole text in the place of the output or fails, and a failure at
any of its steps takes away the temporary file that has been made up to there.  So
a run that fails, like one that only checks, leaves every file as it was, and a run
that succeeds replaces the output and nothing else.
-/

namespace ErrorTaxonomy

/-! ## What a run has to write -/

theorem outcome_compileInput (arguments : Arguments) (host : Host) :
    (compileInput arguments host).outcome =
      ((findConfiguration host arguments.config).outcome.mapError .configuration >>=
        fun configuration =>
          (compileDirectory configuration host.tree arguments.input).outcome.mapError
            .taxonomy) := by
  simp only [compileInput, Traced.outcome_bind, Traced.outcome_note,
    Traced.outcome_mapError]
  rfl

theorem outcome_compileDirectory (configuration : Configuration) (tree : FileTree)
    (path : String) :
    (compileDirectory configuration tree path).outcome =
      ((loadDirectory tree { path, suffixes := configuration.suffixes }).outcome.mapError
          .load >>= fun fragments =>
        (compile configuration.ordering fragments).outcome.mapError .compile) := by
  simp only [compileDirectory, Traced.outcome_bind, Traced.outcome_note,
    Traced.outcome_mapError]
  rfl

theorem compileDirectory_eq_ok_iff {configuration : Configuration} {tree : FileTree}
    {path : String} {model : Model} :
    (compileDirectory configuration tree path).outcome = .ok model ↔
      ∃ fragments,
        (loadDirectory tree { path, suffixes := configuration.suffixes }).outcome =
          .ok fragments ∧
        (compile configuration.ordering fragments).outcome = .ok model := by
  rw [outcome_compileDirectory, bind_eq_ok_iff]
  simp only [mapError_eq_ok_iff]

theorem compileInput_eq_ok {arguments : Arguments} {host : Host} {model : Model}
    (hmodel : (compileInput arguments host).outcome = .ok model) :
    ∃ configuration, (findConfiguration host arguments.config).outcome = .ok configuration ∧
      (compileDirectory configuration host.tree arguments.input).outcome = .ok model := by
  rw [outcome_compileInput] at hmodel
  rcases bind_eq_ok_iff.mp hmodel with ⟨configuration, hconfiguration, hcompiled⟩
  exact ⟨configuration, mapError_eq_ok_iff.mp hconfiguration,
    mapError_eq_ok_iff.mp hcompiled⟩

/-- How a run stands before the writing: it has failed to compile, it has checked what
it compiled, or it has the text of that. -/
inductive PreparedFrom (check : Bool) :
    Except RunError Model → Except RunError (Option Rendering) → Prop
  | failed (error : RunError) : PreparedFrom check (.error error) (.error error)
  | checked {model : Model} : check = true → PreparedFrom check (.ok model) (.ok none)
  | rendered {model : Model} {text : String} :
      check = false → Emits .pretty model text →
        PreparedFrom check (.ok model) (.ok (some { text, errors := model.size }))

theorem PreparedFrom.unique {check : Bool} {compiled : Except RunError Model}
    {outcome other : Except RunError (Option Rendering)}
    (hprepared : PreparedFrom check compiled outcome)
    (hother : PreparedFrom check compiled other) : outcome = other := by
  cases hprepared with
  | failed error =>
      cases hother
      rfl
  | checked hcheck =>
      cases hother with
      | checked _ => rfl
      | rendered hexports _ => simp [hcheck] at hexports
  | rendered hexports hemits =>
      cases hother with
      | checked hcheck => simp [hexports] at hcheck
      | rendered _ hemits' => rw [hemits.unique hemits']

theorem exists_prepareRendering (arguments : Arguments) {model : Model}
    (hends : model.ChainsEnd) :
    ∃ prepared, prepareRendering arguments model = some prepared ∧
      PreparedFrom arguments.check (.ok model) prepared.outcome := by
  unfold prepareRendering
  by_cases hcheck : arguments.check = true
  · rw [if_pos hcheck]
    exact ⟨_, rfl, .checked hcheck⟩
  · obtain ⟨text, hemits⟩ := exists_emits .pretty hends
    obtain ⟨rendered, hrendered, htext⟩ := hemits.exists_renderJson
    rw [if_neg hcheck, hrendered]
    refine ⟨_, rfl, ?_⟩
    rw [Traced.outcome_bind, Traced.outcome_mapError, htext]
    exact .rendered (Bool.eq_false_iff.mpr hcheck) hemits

/-- Every run comes to be prepared. -/
theorem exists_prepareRun (arguments : Arguments) (host : Host) :
    ∃ prepared, prepareRun arguments host = some prepared ∧
      PreparedFrom arguments.check (compileInput arguments host).outcome prepared.outcome := by
  cases hcompiled : (compileInput arguments host).outcome with
  | error error =>
      exact ⟨_, Traced.thenMaybe_of_error hcompiled _, .failed error⟩
  | ok model =>
      obtain ⟨configuration, -, hmodel⟩ := compileInput_eq_ok hcompiled
      obtain ⟨fragments, -, hmodel⟩ := compileDirectory_eq_ok_iff.mp hmodel
      obtain ⟨prepared, hprepared, hfrom⟩ :=
        exists_prepareRendering arguments (chainsEnd_of_compile hmodel)
      exact ⟨_, Traced.thenMaybe_of_ok hcompiled hprepared, hfrom⟩

theorem outcome_completeRun (arguments : Arguments)
    (prepared : Traced RunError (Option Rendering))
    (write : Rendering → Except SystemFault Unit) :
    (completeRun arguments prepared write).outcome =
      (prepared.outcome >>= fun found =>
        match found with
        | none => .ok ()
        | some rendering => (write rendering).mapError (.output arguments.output)) := by
  rw [completeRun, Traced.outcome_bind]
  cases prepared.outcome with
  | error error => rfl
  | ok found =>
      cases found with
      | none => rfl
      | some rendering =>
          change (concludeRun arguments rendering (write rendering)).outcome =
            (write rendering).mapError (.output arguments.output)
          rw [concludeRun, Traced.outcome_bind, Traced.outcome_ofExcept]
          cases write rendering <;> rfl

/-! ## Writing -/

/-- A text takes the place of the output, or nothing has changed. -/
inductive WritesWhole (host : Host) (path text : String) :
    Except SystemFault Unit × FileTree → Prop
  | refused (fault : SystemFault) : WritesWhole host path text (.error fault, host.tree)
  | replaced {target : Location} {after : FileTree} :
      host.tree.ReplacedAt after path target text.toUTF8 →
        WritesWhole host path text (.ok (), after)

theorem writeOutput_writesWhole (host : Host) (path text : String) :
    WritesWhole host path text (writeOutput host path text) := by
  unfold writeOutput
  cases hcreate : unlessRefused host.refusals.creating
      (host.tree.createTemporary (outputDirectory path)) with
  | error fault => exact .refused fault
  | ok result =>
      obtain ⟨temporary, created⟩ := result
      have hcreated := (unlessRefused_eq_ok_iff.mp hcreate).2
      obtain ⟨hroot, hempty⟩ := FileTree.createTemporary_eq_ok hcreated
      have hfull := hempty.refill text.toUTF8 hroot
      cases host.refusals.filling with
      | some fault =>
          simp only [unlessRefused_some, hempty.unlink_eq]
          exact .refused fault
      | none =>
          simp only [unlessRefused_none]
          cases hreplace : unlessRefused host.refusals.replacing
              ((created.setEntry temporary (.file text.toUTF8)).rename temporary path) with
          | error fault =>
              simp only [hfull.unlink_eq]
              exact .refused fault
          | ok renamed =>
              have hrenamed := (unlessRefused_eq_ok_iff.mp hreplace).2
              obtain ⟨target, hreplaced⟩ := hfull.replacedAt hrenamed
              exact .replaced hreplaced

/-! ## Whole runs -/

section Prepared

variable {arguments : Arguments} {host : Host}
  {prepared : Traced RunError (Option Rendering)}

theorem run_of_prepareRun (hprepared : prepareRun arguments host = some prepared) :
    run arguments host = some (finishRun arguments host prepared) := by
  rw [run, hprepared]
  rfl

theorem finishRun_of_failed {error : RunError} (hfailed : prepared.outcome = .error error) :
    (finishRun arguments host prepared).progress.outcome = .error error ∧
      (finishRun arguments host prepared).tree = host.tree := by
  constructor
  · rw [finishRun, outcome_completeRun, hfailed]
    rfl
  · simp only [finishRun, hfailed]

theorem finishRun_of_checked (hchecked : prepared.outcome = .ok none) :
    (finishRun arguments host prepared).progress.outcome = .ok () ∧
      (finishRun arguments host prepared).tree = host.tree := by
  constructor
  · rw [finishRun, outcome_completeRun, hchecked]
    rfl
  · simp only [finishRun, hchecked]

theorem finishRun_of_rendered {rendering : Rendering}
    (hrendered : prepared.outcome = .ok (some rendering)) :
    (finishRun arguments host prepared).progress.outcome =
        (writeOutput host arguments.output rendering.text).1.mapError
          (.output arguments.output) ∧
      (finishRun arguments host prepared).tree =
        (writeOutput host arguments.output rendering.text).2 := by
  constructor
  · rw [finishRun, outcome_completeRun, hrendered]
    rfl
  · simp only [finishRun, hrendered]

/-- A run with a text to write fails at the writing, or the text comes to stand in the
place of the output. -/
theorem finishRun_rendered_cases {rendering : Rendering}
    (hrendered : prepared.outcome = .ok (some rendering)) :
    (∃ fault, (finishRun arguments host prepared).progress.outcome =
        .error (.output arguments.output fault) ∧
      (finishRun arguments host prepared).tree = host.tree) ∨
    (∃ target, (finishRun arguments host prepared).progress.outcome = .ok () ∧
      host.tree.ReplacedAt (finishRun arguments host prepared).tree arguments.output target
        rendering.text.toUTF8) := by
  obtain ⟨houtcome, htree⟩ := finishRun_of_rendered hrendered
  have hwhole := writeOutput_writesWhole host arguments.output rendering.text
  generalize writeOutput host arguments.output rendering.text = written
    at houtcome htree hwhole
  cases hwhole with
  | refused fault => exact .inl ⟨fault, houtcome, htree⟩
  | @replaced target after hreplaced =>
      right
      rw [htree]
      exact ⟨target, houtcome, hreplaced⟩

end Prepared

/-- The three ways in which a run ends: it fails, it has checked, or the output holds
the pretty text of the model that the files of before the run compile to. -/
inductive EndsAtomically (arguments : Arguments) (host : Host) (result : RunResult) :
    Prop
  | failed (error : RunError) :
      result.progress.outcome = .error error → result.tree = host.tree →
        EndsAtomically arguments host result
  | checked :
      arguments.check = true → result.progress.outcome = .ok () →
        result.tree = host.tree → EndsAtomically arguments host result
  | exported {configuration : Configuration} {model : Model} {text : String}
      {target : Location} :
      arguments.check = false → result.progress.outcome = .ok () →
        (findConfiguration host arguments.config).outcome = .ok configuration →
        (compileDirectory configuration host.tree arguments.input).outcome = .ok model →
        Emits .pretty model text →
        host.tree.ReplacedAt result.tree arguments.output target text.toUTF8 →
        EndsAtomically arguments host result

/-- Every run comes to an end, in one of the three ways. -/
theorem run_endsAtomically (arguments : Arguments) (host : Host) :
    ∃ result, run arguments host = some result ∧ EndsAtomically arguments host result := by
  obtain ⟨prepared, hprepared, hfrom⟩ := exists_prepareRun arguments host
  refine ⟨finishRun arguments host prepared, run_of_prepareRun hprepared, ?_⟩
  generalize hcompiled : (compileInput arguments host).outcome = compiled at hfrom
  generalize houtcome : prepared.outcome = outcome at hfrom
  cases hfrom with
  | failed error =>
      obtain ⟨hfailed, htree⟩ := finishRun_of_failed houtcome
      exact .failed error hfailed htree
  | checked hcheck =>
      obtain ⟨hchecked, htree⟩ := finishRun_of_checked houtcome
      exact .checked hcheck hchecked htree
  | rendered hexports hemits =>
      obtain ⟨configuration, hconfiguration, hmodel⟩ := compileInput_eq_ok hcompiled
      rcases finishRun_rendered_cases houtcome with
        ⟨fault, hfailed, htree⟩ | ⟨target, hwritten, hreplaced⟩
      · exact .failed (.output arguments.output fault) hfailed htree
      · exact .exported hexports hwritten hconfiguration hmodel hemits hreplaced

/-- One pair of definition files, and an output that other definitions have left. -/
def staleHost : Host where
  tree :=
    { entries :=
        [(["defs"], .directory),
          (["defs", "disk.errors.yaml"], .file "- name: Full\n".toUTF8),
          (["defs", "disk.metadata.yaml"], .file "- name: Full\n  level: ERR\n".toUTF8),
          (["taxonomy.json"], .file "\x7b\"errors\":[]\x7d".toUTF8)]
      current := []
      distinct := by decide }
  userConfiguration := none

def freshModel : Model where
  definitions := [{ Definition.plain "Full" "" .error with interface := some "disk" }]

theorem staleHost_exported :
    ∃ result target text, run { input := "defs" } staleHost = some result ∧
      result.progress.outcome = .ok () ∧ Emits .pretty freshModel text ∧
      staleHost.tree.ReplacedAt result.tree "taxonomy.json" target text.toUTF8 := by
  have hpassed : (run { input := "defs" } staleHost).map
      (fun result => result.progress.outcome) = some (.ok ()) := by
    decide +kernel
  have hdefault : (findConfiguration staleHost none).outcome = .ok {} := by
    decide +kernel
  have hfresh : (compileDirectory {} staleHost.tree "defs").outcome = .ok freshModel := by
    decide +kernel
  obtain ⟨result, hrun, hends⟩ := run_endsAtomically { input := "defs" } staleHost
  rw [hrun] at hpassed
  have houtcome : result.progress.outcome = .ok () := Option.some.inj hpassed
  cases hends with
  | failed error hfailed _ => cases hfailed.symm.trans houtcome
  | checked hcheck _ _ => cases hcheck
  | @exported _ _ text target _ _ hconfiguration hmodel hemits hreplaced =>
      obtain rfl := Except.ok.inj (hconfiguration.symm.trans hdefault)
      obtain rfl := Except.ok.inj (hmodel.symm.trans hfresh)
      exact ⟨result, target, text, hrun, houtcome, hemits, hreplaced⟩

end ErrorTaxonomy
