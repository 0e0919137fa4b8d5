import InfraGraph.CommandLine.Run

/-!
# The program

Reads the files that the arguments ask for, and writes what the run answers.
-/

namespace InfraGraph

/-- What a path holds, or why it cannot be read. -/
def readPath (path : String) : IO (Except ReadFailure String) := do
  try
    return .ok (← IO.FS.readFile path)
  catch
    | .noFileOrDirectory .. => return .error .absent
    | .inappropriateType _ 20 _ => return .error .insideFile
    | .inappropriateType _ 21 _ => return .error .isFolder
    | .invalidArgument _ 36 _ => return .error .longName
    | e => return .error (.other (toString e))

end InfraGraph

open InfraGraph in
/-- Runs the program. -/
def main (args : List String) : IO UInt32 := do
  let request := Request.ofArguments args
  let texts ← request.paths.mapM fun path => return (path, ← readPath path)
  let outcome := request.answer fun path => (texts.lookup path).getD (.error .absent)
  (← IO.getStdout).putStr outcome.output
  (← IO.getStderr).putStr outcome.errors
  return outcome.status.toUInt32
