import Flak.Json.Printer
import Flak.Runner.Load

namespace Flak.CommandLine

/-!
# The command line

* `Options.parse` — what the arguments ask for.
* `run` — loads settings and scenario, plays it, and prints the report. It reaches the world through
  `Surroundings` only.
-/

/-- What a run leaves behind: its exit `code`, and what it wrote. -/
structure Outcome where
  code : UInt32
  output : String := ""
  errors : String := ""

/-- The end of a run that failed with this `message`. -/
def Outcome.failure (message : String) : Outcome :=
  { code := 1, errors := s!"error: {message}\n" }

/-! ### Arguments -/

/-- What the arguments ask for; `none` where they say nothing. -/
structure Options where
  scenario : Option String := none
  config : Option String := none
  seed : Option Nat := none

/-- How the program is called, for those who do it wrong or ask for `--help`. -/
def usage : String := "Usage: barrage [--scenario FILE] [--config FILE] [--seed N]\n"

/-- A seed of 64 bits in decimal digits, with or without a plus sign, that is the whole `text`. -/
def seed? (text : String) : Option Nat :=
  let digits := match text.toList with
    | '+' :: digits => digits
    | digits => digits
  if digits.isEmpty || !digits.all Json.isDigit then none
  else
    let seed := Json.ofDigits digits
    if seed < UInt64.size then some seed else none

/-- Takes the arguments in turn; the first one that cannot be served ends the run with its
    `Outcome`. An option without its file takes back an earlier one. -/
def Options.parse : List String → Options → Except Outcome Options
  | [], options => .ok options
  | argument :: rest, options =>
      match argument with
      | "--scenario" =>
          match rest with
          | path :: rest => parse rest { options with scenario := some path }
          | [] => .ok { options with scenario := none }
      | "--config" =>
          match rest with
          | path :: rest => parse rest { options with config := some path }
          | [] => .ok { options with config := none }
      | "--seed" =>
          match rest with
          | text :: rest =>
              match seed? text with
              | some seed => parse rest { options with seed := some seed }
              | none => .error (.failure "invalid --seed value")
          | [] => .error (.failure "invalid --seed value")
      | "--help" | "-h" => .error { code := 0, errors := usage }
      | other => .error { code := 1, errors := s!"Unknown argument: {other}\n" ++ usage }

/-! ### Running -/

/-- What a run can reach. Reading gives a text or the `ReadFailure` why there is none. -/
structure Surroundings (m : Type → Type) where
  fileText (path : String) : m (Except ReadFailure String)
  inputText : m (Except ReadFailure String)
  /-- Dice that nobody has seeded. -/
  chance : m GameDice

variable {m : Type → Type} [Monad m]

/-- A value that `load` makes of the text of a file. -/
def loadFile {α : Type} (surroundings : Surroundings m) (load : String → Except LoadError α)
    (path : String) : m (Except LoadError α) := do
  match ← surroundings.fileText path with
  | .ok text => return load text
  | .error reason => return .error (.unreadable path reason)

/-- The settings of a run with these `options`. -/
def timing (surroundings : Surroundings m) (options : Options) : m (Except String Timing) := do
  match options.config with
  | none => return .ok {}
  | some path => return (← loadFile surroundings Timing.load path).mapError LoadError.message

/-- The scenario of a run with these `options`, from its file or from the input. -/
def scenario (surroundings : Surroundings m) (options : Options) : m (Except String Scenario) := do
  match options.scenario with
  | some path => return (← loadFile surroundings Scenario.load path).mapError LoadError.message
  | none =>
      match ← surroundings.inputText with
      | .ok text => return (Scenario.load text).mapError LoadError.message
      | .error reason => return .error reason.message

/-- The end of a run that played a scenario to its `Report`, or to a fault. -/
def Outcome.ofReport : Except Fault Report → Outcome
  | .ok report => { code := 0, output := Json.pretty (Schema.report.write report) ++ "\n" }
  | .error fault => .failure fault.message

/-- Runs the program with these `arguments`. -/
def run (surroundings : Surroundings m) (arguments : List String) : m Outcome := do
  match Options.parse arguments {} with
  | .error outcome => return outcome
  | .ok options =>
      match ← timing surroundings options with
      | .error message => return .failure message
      | .ok timing =>
          match ← scenario surroundings options with
          | .error message => return .failure message
          | .ok scenario =>
              return .ofReport (scenario.run timing options.seed (← surroundings.chance))

end Flak.CommandLine
