import Equirec.CommandLine

/-!
# The executable

Reads the file that the command names and prints its answer.
-/

open Equirec

/-- The bytes of a real file. -/
def readProgram (path : String) : IO (Except ReadFailure ByteArray) := do
  try
    let bytes ← IO.FS.readBinFile path
    return .ok bytes
  catch
    | .inappropriateType _ code _ =>
      return .error (if code = 20 then .notDirectory else .directory)
    | _ => return .error .missing

/-- The command. -/
def main (arguments : List String) : IO UInt32 := do
  match Request.ofArguments? arguments with
  | none =>
    IO.eprintln "usage: [-v NAME] [--unchecked-conditions] [--leaky-environments] FILE"
    return 2
  | some request =>
    let exit := request.answer (← readProgram request.file)
    IO.print exit.output
    IO.eprint exit.errors
    return exit.status
