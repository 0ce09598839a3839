import Flak.Runner.CommandLine

/-!
# The program

Connects the command line to files, standard input and output, and the randomness of the system.
-/

namespace Flak

/-- The text in the `bytes`. -/
def decodeText (bytes : ByteArray) : Except ReadFailure String :=
  match String.fromUTF8? bytes with
  | some text => .ok text
  | none => .error .notText

/-- The number of an error `code`, which the system gives with either sign. -/
def errorNumber (code : UInt32) : Nat :=
  if code.toNat < 2147483648 then code.toNat else UInt32.size - code.toNat

/-- Why a file could not be read, as a `ReadFailure`. -/
def readFailure : IO.Error → ReadFailure
  | .noFileOrDirectory _ _ _ => .notFound
  | .permissionDenied _ _ _ => .permissionDenied
  | .inappropriateType _ code _ => if errorNumber code = 20 then .notDirectory else .isDirectory
  | .invalidArgument _ code _ => if errorNumber code = 36 then .nameTooLong else .invalidName
  | error => .other (toString error)

/-- All that is left on the standard `input`, after the `bytes` that were read already. -/
partial def readAll (input : IO.FS.Stream) (bytes : ByteArray) : IO ByteArray := do
  let chunk ← input.read 65536
  if chunk.isEmpty then return bytes else readAll input (bytes ++ chunk)

/-- A seed from the randomness of the system, never zero, as `Scenario.source` takes zero for
    none. -/
def freshSeed : IO Nat := do
  let bytes ← IO.getRandomBytes 8
  return bytes.foldl (fun seed byte => seed * 256 + byte.toNat) 0 % (UInt64.size - 1) + 1

/-- The files, the input and the chance that the program works with, as its `Surroundings`. -/
def surroundings : CommandLine.Surroundings IO where
  fileText path := do
    try
      return decodeText (← IO.FS.readBinFile path)
    catch error => return .error (readFailure error)
  inputText := do
    try
      return decodeText (← readAll (← IO.getStdin) .empty)
    catch error => return .error (readFailure error)
  chance := return .ofSeed (← freshSeed)

end Flak

/-- The program: a `run` in the `surroundings` of the system, and what it leaves behind. -/
def main (arguments : List String) : IO UInt32 := do
  let outcome ← Flak.CommandLine.run Flak.surroundings arguments
  (← IO.getStdout).putStr outcome.output
  (← IO.getStderr).putStr outcome.errors
  return outcome.code
