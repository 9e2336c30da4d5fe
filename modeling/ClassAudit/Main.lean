import ClassAudit.Command.Run

/-!
# The program

Collects what a run depends on, runs, and writes what the run ended with.
-/

namespace ClassAudit

/-- Whether a path can be resolved. -/
def resolves (path : String) : IO Bool := do
  try
    let _ ← IO.FS.realPath path
    return true
  catch _ =>
    return false

/-- Why a file cannot be read, in the words of the system. -/
def reason : IO.Error → String
  | .permissionDenied _ _ _ => "Permission denied (os error 13)"
  | failure => toString failure

/-- Visits a path.  It leads to a file if it can be resolved, but not as that of a directory; pipes
and devices are not told apart from files. -/
def visit (path : String) : IO (Option Command.Visit) := do
  if !(← resolves path) || (← resolves (path ++ "/")) then
    return none
  try
    return some (.ok (← IO.FS.readBinFile path).data.toList)
  catch failure =>
    return some (.error (reason failure))

end ClassAudit

/-- Runs the program on the arguments, the variables and the files of the system. -/
def main (arguments : List String) : IO UInt32 := do
  let invocation : ClassAudit.Command.Invocation := {
    arguments
    classPath := ← IO.getEnv "CLASSPATH"
    logFilter := ← IO.getEnv "RUST_LOG" }
  let response ← ClassAudit.Command.runVisiting ClassAudit.visit invocation
  IO.print response.output
  IO.eprint response.errors
  return response.status.toUInt32
