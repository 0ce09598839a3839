import Flak.Json.Reader
import Flak.Save.Scenario

namespace Flak

/-!
# Loading settings and scenarios

* `ReadFailure` — why there is no text to load from.
* `LoadError` — why nothing was loaded.
* `Timing.load`, `Scenario.load` — read a text and refuse what the engine could not run.
-/

/-- Why a text could not be read, from `notFound` to reasons that are only worded. -/
inductive ReadFailure where
  | notFound
  | permissionDenied
  /-- Something on the way is a file. -/
  | notDirectory
  | isDirectory
  | nameTooLong
  /-- The path holds the character that ends a path. -/
  | invalidName
  /-- The bytes are no text. -/
  | notText
  | other (reason : String)
  deriving DecidableEq

/-- The reason of a `ReadFailure` in the words of the system. -/
def ReadFailure.message : ReadFailure → String
  | .notFound => "No such file or directory (os error 2)"
  | .permissionDenied => "Permission denied (os error 13)"
  | .notDirectory => "Not a directory (os error 20)"
  | .isDirectory => "Is a directory (os error 21)"
  | .nameTooLong => "File name too long (os error 36)"
  | .invalidName => "file name contained an unexpected NUL byte"
  | .notText => "stream did not contain valid UTF-8"
  | .other reason => reason

/-- Why settings or a scenario could not be loaded: no text, no document, or an `invalid` one. -/
inductive LoadError where
  | unreadable (path : String) (reason : ReadFailure)
  /-- The text is not JSON, or not of the right form. -/
  | malformed
  | invalid (reason : String)
  deriving DecidableEq

/-- The text that reports a `LoadError`. -/
def LoadError.message : LoadError → String
  | .unreadable path reason => s!"failed to read {path}: {reason.message}"
  | .malformed => "failed to parse JSON: unexpected document"
  | .invalid reason => s!"invalid configuration: {reason}"

/-- The value that the `text` holds in the form of the `schema`. -/
def Schema.parse? {α : Type} (schema : Schema α) (text : String) : Option α :=
  (Json.parse? text).bind schema.read?

/-- A value from the `text`, unless there is an `objection?` to it. -/
def loadWith {α : Type} (schema : Schema α) (objection? : α → Option String) (text : String) :
    Except LoadError α :=
  match schema.parse? text with
  | none => .error .malformed
  | some value =>
      match objection? value with
      | some reason => .error (.invalid reason)
      | none => .ok value

/-- The settings in the `text`, unless there is a `Timing.objection?` to them. -/
def Timing.load (text : String) : Except LoadError Timing :=
  loadWith Schema.timing Timing.objection? text

/-- The scenario in the `text`, unless there is a `Scenario.objection?` to it. -/
def Scenario.load (text : String) : Except LoadError Scenario :=
  loadWith Schema.scenario Scenario.objection? text

end Flak
