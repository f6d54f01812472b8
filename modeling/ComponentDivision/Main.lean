/-
# The command line program

Reads the files that the arguments name, runs the command line on them and prints the
result.
-/
import ComponentDivision.Command.Run
import ComponentDivision.Standard

namespace ComponentDivision.Command

/-- The paths that a command line reads. -/
def pathsRead (args : List Text) : List Text :=
  match Options.read args with
  | .ok (.divide o) => o.path :: o.config.toList
  | _ => []

/-- Why the system does not open a file. -/
def openProblem : IO.Error → OpenProblem
  | .noFileOrDirectory .. => .missing
  | .inappropriateType _ 21 _ => .isDirectory
  | .inappropriateType _ 20 _ => .notDirectory
  | .permissionDenied _ code reason => .other code.toNat reason.toList
  | e => .other 5 e.toString.toList

/-- The bytes at a path. -/
def fetch (path : Path) : IO (Path × Except OpenProblem (List UInt8)) := do
  try
    let bytes ← IO.FS.readBinFile (String.ofList path.spelling)
    return (path, .ok bytes.toList)
  catch e => return (path, .error (openProblem e))

/-- The files that were fetched, and no others. -/
def fetched (found : List (Path × Except OpenProblem (List UInt8))) : Files :=
  fun path => (found.lookup path).getD (.error .missing)

end ComponentDivision.Command

open ComponentDivision ComponentDivision.Command in
/-- Runs the command line. -/
def main (args : List String) : IO UInt32 := do
  let args := args.map String.toList
  let found ← (pathsRead args).mapM fun path => fetch (Path.of path)
  let r := run .standard .standard (fetched found) args
  IO.eprint (String.ofList r.stderr)
  IO.print (String.ofList r.stdout)
  match r.ending with
  | .exit code => return code.toUInt32
  | .crash c =>
    IO.eprintln (String.ofList (c.message Markup.LocateError.message))
    return 1
