import Consequence.CommandLine.Run

/-!
# The program

Runs the command line on the files of the operating system.
-/

set_option autoImplicit false

namespace Consequence

/-- Runs a file operation and sorts out why it failed. -/
def withProblem {α : Type} (operation : IO α) : IO (Except FileProblem α) := do
  match ← operation.toBaseIO with
  | .ok a => return .ok a
  | .error (.inappropriateType _ code _) =>
    return .error (if code = 20 then .notDirectory else .isDirectory)
  | .error _ => return .error .missing

/-- Access to the files of the operating system. -/
def systemFiles : Files IO where
  read path := do
    match ← withProblem (IO.FS.readBinFile path) with
    | .error problem => return .error problem
    | .ok content =>
      match String.fromUTF8? content with
      | some text => return .ok text
      | none => return .error .notText
  write path text := withProblem (IO.FS.writeFile path text)

end Consequence

/-- Runs the program, writes what it has to say and ends with its exit code. -/
def main (arguments : List String) : IO UInt32 := do
  let exit ← Consequence.run Consequence.systemFiles arguments
  (← IO.getStderr).putStr exit.stderr
  (← IO.getStdout).putStr exit.stdout
  return exit.code.toUInt32
