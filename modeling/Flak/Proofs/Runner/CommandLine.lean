import Flak.Runner.Folder

namespace Flak

/-!
# Runs from the command line

* `CommandLine.run_scenario_file` — naming a file as the scenario is the same as handing its text to
  the program on its input.
* `CommandLine.exists_report` — whatever a run prints is the report of a scenario that it loaded and
  played, so a run that fails on its way prints nothing.
-/

namespace CommandLine

variable {folder : Folder} {options : Options} {input : Except ReadFailure String}

/-! ### Arguments -/

/-- Arguments without `--scenario` are read the same whatever file the scenario had before, and leave
    that file as it was. -/
theorem parse_scenario (arguments : List String) (options : Options) (path : Option String)
    (hrest : "--scenario" ∉ arguments) :
    Options.parse arguments { options with scenario := path } =
      (Options.parse arguments options).map fun options => { options with scenario := path } := by
  fun_induction Options.parse arguments options with
  | case1 options => rfl
  | case2 options rest path ih => simp at hrest
  | case3 options => simp at hrest
  | case4 options rest path ih =>
      rw [Options.parse, ih (by simp_all)]
  | case5 options => rfl
  | case6 options rest text seed hseed ih =>
      simp only [Options.parse, hseed]
      exact ih (by simp_all)
  | case7 options rest text hseed => simp only [Options.parse, hseed]; rfl
  | case8 options => rfl
  | case9 options rest => rfl
  | case10 options rest => rfl
  | case11 options rest other h₁ h₂ h₃ h₄ h₅ => simp [Options.parse, Except.map]

/-! ### What a folder gives -/

/-- Files are read by `loadFile` without touching the input. -/
theorem loadFile_surroundings {α : Type} (load : String → Except LoadError α) (path : String) :
    loadFile folder.surroundings load path input =
      (((folder.read path).mapError (.unreadable path)).bind load, input) := by
  simp only [loadFile, Folder.surroundings, bind, StateT.bind]
  cases folder.read path <;> rfl

/-- The settings are loaded by `timing` without touching the input either, so they do not depend on
    it. -/
theorem timing_surroundings (folder : Folder) (options : Options) :
    ∃ settings, ∀ input, timing folder.surroundings options input = (settings, input) := by
  cases hconfig : options.config with
  | none => exact ⟨.ok {}, fun input => by simp only [timing, hconfig]; rfl⟩
  | some path =>
      refine ⟨(((folder.read path).mapError (.unreadable path)).bind Timing.load).mapError
        LoadError.message, fun input => ?_⟩
      simp only [timing, hconfig, bind, StateT.bind, loadFile_surroundings]
      rfl

/-- A scenario from a file of the `folder` is the one that its text gives on the input. -/
theorem scenario_of_read {path text : String} (hread : folder.read path = .ok text)
    (hinput : options.scenario = none) :
    (scenario folder.surroundings { options with scenario := some path } input).1 =
      (scenario folder.surroundings options (.ok text)).1 := by
  simp only [scenario, hinput, bind, StateT.bind, loadFile_surroundings, hread]
  rfl

/-! ### Runs -/

/-- How a run ends with the settings and the scenario that it loaded: the first failure is what it
    reports. -/
def Outcome.ofLoaded (seed : Option Nat) :
    Except String Timing → Except String Scenario → Outcome
  | .error message, _ => .failure message
  | .ok _, .error message => .failure message
  | .ok timing, .ok scenario => .ofReport (scenario.run timing seed .zeros)

/-- An ending prints an `output` only if settings and scenario were loaded and the scenario was
    played to its report. -/
theorem Outcome.exists_played {seed : Option Nat} {settings : Except String Timing}
    {loaded : Except String Scenario}
    (hprinted : (Outcome.ofLoaded seed settings loaded).output ≠ "") :
    ∃ timing scenario report, settings = .ok timing ∧ loaded = .ok scenario ∧
      Scenario.run scenario timing seed .zeros = .ok report ∧
      Outcome.ofLoaded seed settings loaded = .ofReport (.ok report) := by
  match settings, loaded with
  | .error message, _ => exact absurd rfl hprinted
  | .ok _, .error message => exact absurd rfl hprinted
  | .ok timing, .ok scenario =>
      cases hplayed : scenario.run timing seed .zeros with
      | error fault =>
          simp only [Outcome.ofLoaded, hplayed] at hprinted
          exact absurd rfl hprinted
      | ok report =>
          exact ⟨timing, scenario, report, rfl, rfl, hplayed, by rw [Outcome.ofLoaded, hplayed]⟩

/-- What a `run` whose arguments are understood ends with is made of what it loaded. -/
theorem run_surroundings {arguments : List String} {settings : Except String Timing}
    (hparse : Options.parse arguments {} = .ok options)
    (hsettings : ∀ input, timing folder.surroundings options input = (settings, input)) :
    (run folder.surroundings arguments input).1 =
      .ofLoaded options.seed settings (scenario folder.surroundings options input).1 := by
  simp only [run, hparse, bind, StateT.bind, hsettings]
  cases settings with
  | error message => rfl
  | ok timing =>
      obtain ⟨⟨loaded, unread⟩, hloaded⟩ :
          ∃ loaded, scenario folder.surroundings options input = loaded := ⟨_, rfl⟩
      simp only [StateT.bind, hloaded]
      cases loaded <;> rfl

/-- The file of the scenario is as good as the input: with a file named first among the arguments,
    and no other one after it, `run` ends as if the text of the file had been its input. -/
theorem run_scenario_file {path text : String} {rest : List String}
    (hread : folder.read path = .ok text) (hrest : "--scenario" ∉ rest) :
    (run folder.surroundings ("--scenario" :: path :: rest) input).1 =
      (run folder.surroundings rest (.ok text)).1 := by
  have hfile : Options.parse ("--scenario" :: path :: rest) {} =
      (Options.parse rest {}).map fun options => { options with scenario := some path } :=
    parse_scenario rest {} (some path) hrest
  cases hparse : Options.parse rest {} with
  | error outcome =>
      simp only [hparse, Except.map] at hfile
      simp only [run, hparse, hfile]
      rfl
  | ok options =>
      have hinput : options.scenario = none := by
        have hsame := parse_scenario rest {} none hrest
        simp only [hparse, Except.map] at hsame
        injection hsame with hsame
        exact congrArg Options.scenario hsame
      obtain ⟨settings, hsettings⟩ := timing_surroundings folder options
      simp only [hparse, Except.map] at hfile
      rw [run_surroundings hparse hsettings, run_surroundings hfile hsettings,
        scenario_of_read hread hinput]

/-- Arguments that end a run in `Options.parse` print nothing. -/
theorem output_of_parse {arguments : List String} {outcome : Outcome}
    (hparse : Options.parse arguments options = .error outcome) : outcome.output = "" := by
  fun_induction Options.parse arguments options with
  | case2 | case4 | case6 => simp_all
  | case7 | case8 | case9 | case10 | case11 => cases hparse; rfl
  | _ => cases hparse

/-- Whatever `run` prints is the report of the scenario that it loaded, played with its settings and
    its seed. -/
theorem exists_report {arguments : List String}
    (hprinted : (run folder.surroundings arguments input).1.output ≠ "") :
    ∃ options timing scenario report, Options.parse arguments {} = .ok options ∧
      (CommandLine.timing folder.surroundings options input).1 = .ok timing ∧
      (CommandLine.scenario folder.surroundings options input).1 = .ok scenario ∧
      Scenario.run scenario timing options.seed .zeros = .ok report ∧
      (run folder.surroundings arguments input).1 = .ofReport (.ok report) := by
  cases hparse : Options.parse arguments {} with
  | error outcome =>
      have hended : (run folder.surroundings arguments input).1 = outcome := by
        simp only [run, hparse]
        rfl
      exact absurd (hended ▸ output_of_parse hparse) hprinted
  | ok options =>
      obtain ⟨settings, hsettings⟩ := timing_surroundings folder options
      rw [run_surroundings hparse hsettings] at hprinted ⊢
      obtain ⟨timing, scenario, report, hloaded, hscenario, hplayed, hended⟩ :=
        Outcome.exists_played hprinted
      exact ⟨options, timing, scenario, report, rfl, by rw [hsettings, hloaded], hscenario, hplayed,
        hended⟩

end CommandLine

end Flak
