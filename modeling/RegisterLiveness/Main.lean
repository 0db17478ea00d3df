import RegisterLiveness.Cli.Run

/-!
# The command-line program

Reads the environment variables the command line looks at, starts the run, reads the program
file the run asks for, and prints what the run writes, exiting with its status.
-/

open RegisterLiveness Cli

/-- The environment variables the command line reads. -/
def watchedVariables : List String := ["REGFLOW_SCHEDULE", "REGFLOW_VERIFY"]

/-- The content of the file at `path`, or the system's message for the failure to read it. -/
def readProgramText (path : String) : IO (Except String String) := do
  try
    let text ← IO.FS.readFile path
    return .ok text
  catch e =>
    match e with
    | .noFileOrDirectory .. => return .error ("open " ++ path ++ ": no such file or directory")
    | _ => return .error ("open " ++ path ++ ": " ++ toString e)

def main (argv : List String) : IO UInt32 := do
  let env ← watchedVariables.filterMapM fun k => do
    let v ← IO.getEnv k
    return v.map fun x => (k, x)
  let o ← match start env argv with
    | .done o => pure o
    | .read path next => do
      let content ← readProgramText path
      pure (next content)
  IO.print o.stdout
  IO.eprint o.stderr
  return o.exit.toUInt32
