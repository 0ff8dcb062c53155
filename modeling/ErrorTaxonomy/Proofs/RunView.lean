import ErrorTaxonomy.Proofs.AtomicRun
import ErrorTaxonomy.Proofs.DirectoryView

/-!
# What a run sees

A run selects at most one configuration file, and of the input directory it sees the
errors files that the suffixes of the configuration single out and the metadata files
next to them.  Two runs that agree on these get as far as each other, at any two log
levels: both fail with the same error, both have checked the same input, or both come
to write the same text.
-/

namespace ErrorTaxonomy

/-! ## The configuration -/

/-- The configuration file that is to be used, if any: the one that is named, or else
the first of the local file and the user's file that is there. -/
inductive Selects (host : Host) : Option String → Option String → Prop
  | named (path : String) : Selects host (some path) (some path)
  | localFile :
      (host.tree.found? localConfiguration).isSome →
        Selects host none (some localConfiguration)
  | userFile {path : String} :
      host.tree.found? localConfiguration = none → host.userConfiguration = some path →
        (host.tree.found? path).isSome → Selects host none (some path)
  | noFile :
      host.tree.found? localConfiguration = none →
        (∀ path, host.userConfiguration = some path → host.tree.found? path = none) →
        Selects host none none

theorem exists_selects (host : Host) (explicit : Option String) :
    ∃ selected, Selects host explicit selected := by
  cases explicit with
  | some path => exact ⟨some path, .named path⟩
  | none =>
      cases hlocal : host.tree.found? localConfiguration with
      | some entry => exact ⟨_, .localFile (by simp [hlocal])⟩
      | none =>
          cases huser : host.userConfiguration with
          | none => exact ⟨none, .noFile hlocal (by simp [huser])⟩
          | some path =>
              cases hfile : host.tree.found? path with
              | some entry => exact ⟨some path, .userFile hlocal huser (by simp [hfile])⟩
              | none => exact ⟨none, .noFile hlocal (by simp [huser, hfile])⟩

theorem Selects.unique {host : Host} {explicit selected other : Option String}
    (hselects : Selects host explicit selected) (hother : Selects host explicit other) :
    selected = other := by
  cases hselects <;> cases hother <;> simp_all

/-- The configuration of a file, or the default one without a file. -/
def readSelected (tree : FileTree) : Option String → Except ConfigurationError Configuration
  | none => .ok {}
  | some path => readConfigurationFile tree path

theorem outcome_findConfiguration {host : Host} {explicit selected : Option String}
    (hselects : Selects host explicit selected) :
    (findConfiguration host explicit).outcome = readSelected host.tree selected := by
  unfold findConfiguration configurationOrigin
  simp only [FileTree.pathExists_eq]
  cases hselects with
  | named path => rfl
  | localFile hlocal =>
      rw [if_pos hlocal]
      rfl
  | @userFile path hlocal huser hfile =>
      simp only [hlocal, huser, if_pos hfile]
      rfl
  | noFile hlocal huser =>
      simp only [hlocal]
      cases hpath : host.userConfiguration with
      | none => rfl
      | some path =>
          simp only [huser path hpath]
          rfl

theorem readConfigurationFile_eq {first second : FileTree} {path : String}
    (hfound : first.found? path = second.found? path) :
    readConfigurationFile first path = readConfigurationFile second path := by
  unfold readConfigurationFile
  rw [FileTree.pathExists_eq, FileTree.pathExists_eq, ← hfound]
  cases hentry : first.found? path with
  | none => rfl
  | some entry =>
      have htext := FileTree.readText_eq hentry (hfound ▸ hentry)
      rw [htext]

/-! ## Two runs -/

/-- Two hosts show a run the same: it selects the same configuration file, finds the
same there, and is shown the same definitions if that makes a configuration. -/
structure SameView (arguments : Arguments) (selected : Option String)
    (first second : Host) : Prop where
  first_selects : Selects first arguments.config selected
  second_selects : Selects second arguments.config selected
  configuration_eq : ∀ path, selected = some path →
    first.tree.found? path = second.tree.found? path
  definitions : ∀ configuration,
    (findConfiguration first arguments.config).outcome = .ok configuration →
      DefinitionDirectory.SameFiles
        { path := arguments.input, suffixes := configuration.suffixes }
        first.tree second.tree

/-- A run comes to write a text: the text stands in the place of the output, unless
the writing has failed. -/
def ComesToWrite (path text : String) (result : RunResult) : Prop :=
  (∃ fault, result.progress.outcome = .error (.output path fault)) ∨
    (result.progress.outcome = .ok () ∧
      result.tree.lookup path = .ok (.file text.toUTF8))

/-- The same error, the same successful check, or the same text to be written. -/
inductive EndsAlike (arguments : Arguments) (first second : RunResult) : Prop
  | failed (error : RunError) :
      first.progress.outcome = .error error → second.progress.outcome = .error error →
        EndsAlike arguments first second
  | checked :
      arguments.check = true → first.progress.outcome = .ok () →
        second.progress.outcome = .ok () → EndsAlike arguments first second
  | rendered (text : String) :
      arguments.check = false → ComesToWrite arguments.output text first →
        ComesToWrite arguments.output text second → EndsAlike arguments first second

section TwoRuns

variable {arguments : Arguments} {selected : Option String} {first second : Host}

theorem SameView.outcome_findConfiguration_eq
    (hsame : SameView arguments selected first second) :
    (findConfiguration first arguments.config).outcome =
      (findConfiguration second arguments.config).outcome := by
  rw [outcome_findConfiguration hsame.first_selects,
    outcome_findConfiguration hsame.second_selects]
  cases hselected : selected with
  | none => rfl
  | some path => exact readConfigurationFile_eq (hsame.configuration_eq path hselected)

theorem SameView.outcome_compileInput_eq
    (hsame : SameView arguments selected first second) :
    (compileInput arguments first).outcome = (compileInput arguments second).outcome := by
  have hfound := hsame.outcome_findConfiguration_eq
  rw [outcome_compileInput, outcome_compileInput, ← hfound]
  cases hconfiguration : (findConfiguration first arguments.config).outcome with
  | error error => simp only [Except.mapError, bind, Except.bind]
  | ok configuration =>
      have hloaded := loadDirectory_eq (hsame.definitions configuration hconfiguration)
      have hcompiled : compileDirectory configuration first.tree arguments.input =
          compileDirectory configuration second.tree arguments.input := by
        simp only [compileDirectory, hloaded]
      simp only [Except.mapError, bind, Except.bind, hcompiled]

theorem outcome_compileInput_logLevel (arguments : Arguments) (host : Host)
    (level : String) :
    (compileInput { arguments with logLevel := level } host).outcome =
      (compileInput arguments host).outcome := by
  rw [outcome_compileInput, outcome_compileInput]

theorem comesToWrite_of_rendered (arguments : Arguments) (host : Host)
    {prepared : Traced RunError (Option Rendering)} {rendering : Rendering}
    (hrendered : prepared.outcome = .ok (some rendering)) :
    ComesToWrite arguments.output rendering.text (finishRun arguments host prepared) := by
  rcases finishRun_rendered_cases hrendered with
    ⟨fault, houtcome, _⟩ | ⟨target, houtcome, hreplaced⟩
  · exact .inl ⟨fault, houtcome⟩
  · exact .inr ⟨houtcome, hreplaced.found⟩

/-- Runs that have prepared the same end alike, whatever their files are. -/
theorem endsAlike_of_prepared {arguments' : Arguments} {compiled : Except RunError Model}
    {prepared other : Traced RunError (Option Rendering)}
    (houtput : arguments'.output = arguments.output)
    (hfrom : PreparedFrom arguments.check compiled prepared.outcome)
    (hsame : prepared.outcome = other.outcome) :
    EndsAlike arguments (finishRun arguments first prepared)
      (finishRun arguments' second other) := by
  generalize houtcome : prepared.outcome = outcome at hfrom
  have hother : other.outcome = outcome := hsame.symm.trans houtcome
  cases hfrom with
  | failed error =>
      exact .failed error (finishRun_of_failed houtcome).1 (finishRun_of_failed hother).1
  | checked hcheck =>
      exact .checked hcheck (finishRun_of_checked houtcome).1 (finishRun_of_checked hother).1
  | @rendered _ text hexports _ =>
      have hwrites := comesToWrite_of_rendered arguments first houtcome
      have hwrites' := comesToWrite_of_rendered arguments' second hother
      rw [houtput] at hwrites'
      exact .rendered text hexports hwrites hwrites'

/-- Hosts that show a run the same prepare the same, also at another log level, so
that the runs differ at most in how the writing goes. -/
theorem endsAlike_of_sameView (hsame : SameView arguments selected first second)
    (level : String) :
    ∃ prepared other, prepareRun arguments first = some prepared ∧
      prepareRun { arguments with logLevel := level } second = some other ∧
      prepared.outcome = other.outcome ∧
      ∃ result result', run arguments first = some result ∧
        run { arguments with logLevel := level } second = some result' ∧
        EndsAlike arguments result result' := by
  obtain ⟨prepared, hprepared, hfrom⟩ := exists_prepareRun arguments first
  obtain ⟨other, hother, hfrom'⟩ :=
    exists_prepareRun { arguments with logLevel := level } second
  rw [outcome_compileInput_logLevel, ← hsame.outcome_compileInput_eq] at hfrom'
  have houtcome : prepared.outcome = other.outcome := hfrom.unique hfrom'
  exact ⟨prepared, other, hprepared, hother, houtcome, _, _, run_of_prepareRun hprepared,
    run_of_prepareRun hother, endsAlike_of_prepared rfl hfrom houtcome⟩

end TwoRuns

/-- A local configuration and one pair of definition files. -/
def tidyHost : Host where
  tree :=
    { entries :=
        [(["errtax"], .directory),
          (["errtax", "config.toml"], .file "[loader]\nerrors_suffix = \".err\"\n".toUTF8),
          (["defs"], .directory),
          (["defs", "disk.err"], .file "- name: Full\n".toUTF8),
          (["defs", "disk.metadata.yaml"], .file "- name: Full\n  level: ERR\n".toUTF8)]
      current := []
      distinct := by decide }
  userConfiguration := none

/-- The same files in another order, among files that a run does not look at: a user's
configuration, metadata without errors, a directory named like an errors file, an errors
file by another suffix and an old output. -/
def clutteredHost : Host where
  tree :=
    { entries :=
        [(["user.toml"], .file "[loader".toUTF8),
          (["taxonomy.json"], .file "old".toUTF8),
          (["errtax"], .directory),
          (["errtax", "config.toml"], .file "[loader]\nerrors_suffix = \".err\"\n".toUTF8),
          (["defs"], .directory),
          (["defs", "tape.metadata.yaml"], .file "- name:".toUTF8),
          (["defs", "cloud.err"], .directory),
          (["defs", "disk.errors.yaml"], .file "- name: Io\n".toUTF8),
          (["defs", "disk.metadata.yaml"], .file "- name: Full\n  level: ERR\n".toUTF8),
          (["defs", "disk.err"], .file "- name: Full\n".toUTF8)]
      current := []
      distinct := by decide }
  userConfiguration := some "/user.toml"

theorem clutteredHost_sameFiles :
    DefinitionDirectory.SameFiles
      { path := "defs", suffixes := { errors := ".err" } }
      tidyHost.tree clutteredHost.tree := by
  let directory : DefinitionDirectory := { path := "defs", suffixes := { errors := ".err" } }
  have htidy : tidyHost.tree.listDirectory "defs" =
      .ok ["disk.err", "disk.metadata.yaml"] := by decide +kernel
  have hcluttered : clutteredHost.tree.listDirectory "defs" =
      .ok ["tape.metadata.yaml", "cloud.err", "disk.errors.yaml", "disk.metadata.yaml",
        "disk.err"] := by decide +kernel
  have hfirst : ∀ name, directory.Lists tidyHost.tree name ↔ name ∈ ["disk.err"] := by
    intro name
    rw [← DefinitionDirectory.mem_filter_iff_lists htidy,
      show ["disk.err", "disk.metadata.yaml"].filter (directory.isErrorsFile tidyHost.tree) =
        ["disk.err"] by decide +kernel]
  have hsecond : ∀ name,
      directory.Lists clutteredHost.tree name ↔ name ∈ ["disk.err"] := by
    intro name
    rw [← DefinitionDirectory.mem_filter_iff_lists hcluttered,
      show ["tape.metadata.yaml", "cloud.err", "disk.errors.yaml", "disk.metadata.yaml",
          "disk.err"].filter (directory.isErrorsFile clutteredHost.tree) =
        ["disk.err"] by decide +kernel]
  constructor
  · simp [htidy, hcluttered]
  · intro name
    rw [hfirst, hsecond]
  · intro name hlists
    obtain rfl := List.mem_singleton.mp ((hfirst name).mp hlists)
    decide +kernel
  · intro name hlists
    obtain rfl := List.mem_singleton.mp ((hfirst name).mp hlists)
    decide +kernel

theorem tidyHost_configuration :
    (findConfiguration tidyHost none).outcome = .ok { suffixes := { errors := ".err" } } := by
  decide +kernel

theorem clutteredHost_endsAlike :
    SameView { input := "defs" } (some localConfiguration) tidyHost clutteredHost ∧
      ∃ prepared other, prepareRun { input := "defs" } tidyHost = some prepared ∧
        prepareRun { input := "defs", logLevel := "trace" } clutteredHost = some other ∧
        prepared.outcome = other.outcome ∧
        ∃ result result', run { input := "defs" } tidyHost = some result ∧
          run { input := "defs", logLevel := "trace" } clutteredHost = some result' ∧
          EndsAlike { input := "defs" } result result' := by
  have hsame : SameView { input := "defs" } (some localConfiguration) tidyHost
      clutteredHost := by
    constructor
    · exact .localFile (by decide +kernel)
    · exact .localFile (by decide +kernel)
    · intro path hselected
      obtain rfl := Option.some.inj hselected
      rfl
    · intro configuration hconfiguration
      obtain rfl := Except.ok.inj (tidyHost_configuration.symm.trans hconfiguration)
      exact clutteredHost_sameFiles
  exact ⟨hsame, endsAlike_of_sameView hsame "trace"⟩

end ErrorTaxonomy
