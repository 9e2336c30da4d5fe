import ClassAudit.Command.Usage
import ClassAudit.Log.Notice

/-!
# Running the program

A run depends on the arguments, on two variables and on the files that can be reached, and it ends
with an exit status and the text for the two output streams.  The status is zero for a class that
is accepted and for a flag, one for a class that is not accepted, and two for arguments that are
not understood.  The log goes to the second stream.

Of the files, a run depends on one at most: the first candidate that is a file.  `runVisiting` visits
the candidates up to this one, and runs on what it finds.  A file that is there but cannot be read is
not passed over; the check fails with the reason that is given for it.
-/

namespace ClassAudit.Command

/-- What the program is started with. -/
structure Invocation where
  arguments : List String
  /-- The directories in which classes are looked up, if they are given. -/
  classPath : Option String
  /-- Which notices are shown, if it is given. -/
  logFilter : Option String

/-- How a run ended. -/
structure Response where
  status : Nat
  output : String
  errors : String
deriving DecidableEq

namespace Invocation

/-- What the program is asked to do. -/
def request (invocation : Invocation) : Except UsageError Request :=
  Request.ofArguments invocation.arguments

/-- The directories in which classes are looked up. -/
def searchPath (invocation : Invocation) : SearchPath :=
  .ofVariable invocation.classPath

/-- The paths of the files on which a run may depend. -/
def candidates (invocation : Invocation) : List String :=
  match invocation.request with
  | .ok (.check className) => invocation.searchPath.candidates className
  | _ => []

end Invocation

/-- The notices at the end of a check. -/
def verdict (className : String) : Except Fault CompiledClass → List Log.Notice
  | .ok compiled => [.accepted className, .contents compiled]
  | .error fault => [.rejected className fault]

/-- The exit status of a check. -/
def status : Except Fault CompiledClass → Nat
  | .ok _ => 0
  | .error _ => 1

/-- Checks a class. -/
def check (invocation : Invocation) (files : FileStore) (className : String) : Response :=
  let search := invocation.searchPath
  let report := search.readClass files .standard className
  let notices :=
    .searching search :: (report.log.map Log.Notice.event ++ verdict className report.result)
  ⟨status report.result, "", Log.page (.ofVariable invocation.logFilter) notices⟩

/-- Does what the program is asked to do. -/
def run (invocation : Invocation) (files : FileStore) : Response :=
  match invocation.request with
  | .error wrong => ⟨2, "", wrong.text⟩
  | .ok (.explain flag) => ⟨0, flag.text, ""⟩
  | .ok (.check className) => check invocation files className

/-! ## One file at most -/

/-- The content of a file, or the reason why it cannot be read. -/
abbrev Visit := Except String Bytes

/-- The first of some paths that leads to a file, with what was found there. -/
def firstVisit? {m : Type → Type} [Monad m] (visit : String → m (Option Visit))
    (paths : List String) : m (Option (String × Visit)) :=
  paths.findSomeM? fun path => do return (← visit path).map (path, ·)

/-- Fails a check because the file cannot be read. -/
def failUnreadable (invocation : Invocation) (className path reason : String) : Response :=
  let notices : List Log.Notice := [.searching invocation.searchPath,
    .event (.opened className path), .unreadable className reason]
  ⟨1, "", Log.page (.ofVariable invocation.logFilter) notices⟩

/-- Does what the program is asked to do, given the first candidate that is a file. -/
def respond (invocation : Invocation) : Option (String × Visit) → Response
  | none => run invocation fun _ => none
  | some (path, .ok content) =>
    run invocation fun place => if place = path then some content else none
  | some (path, .error reason) =>
    match invocation.request with
    | .ok (.check className) => failUnreadable invocation className path reason
    | _ => run invocation fun _ => none

/-- Does what the program is asked to do, visiting the candidates up to the first file. -/
def runVisiting {m : Type → Type} [Monad m] (visit : String → m (Option Visit))
    (invocation : Invocation) : m Response := do
  return respond invocation (← firstVisit? visit invocation.candidates)

end ClassAudit.Command
