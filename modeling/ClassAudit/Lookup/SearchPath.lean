import ClassAudit.Layout.Reading

/-!
# Search paths

A search path is a list of root directories.  A class is looked up under each of them in turn, in
the file that its name stands for: every dot of the name separates two directories, and the file
ends in `.class`.  The first root that has this file decides, whatever the file holds.

A file store says which paths lead to a regular file and what the file holds.  Nothing else about
the file system matters here; in particular a directory is not a file.
-/

namespace ClassAudit

/-- The regular files that can be reached, each with its content. -/
abbrev FileStore := String → Option Bytes

/-- How a look-up ended: its result and the events on the way, the first one in front. -/
structure Report (α : Type) where
  result : Except Fault α
  log : List Event

/-- The directories in which classes are looked up, in this order. -/
structure SearchPath where
  roots : List String
deriving DecidableEq

namespace SearchPath

/-- The search path in a variable: its parts between colons, empty ones included, or the current
directory if the variable is not set. -/
def ofVariable : Option String → SearchPath
  | none => ⟨["."]⟩
  | some value => ⟨(value.toList.splitOn ':').map String.ofList⟩

/-- The path of the file of a class below a root. -/
def resourceName (className : String) : String :=
  .ofList (className.toList.map (fun char => if char = '.' then '/' else char) ++ ".class".toList)

/-- A path below a root.  A path that begins with a slash stands by itself, and a slash is put
between the two unless the root is empty or ends in one. -/
def join (root path : String) : String :=
  if path.toList.head? = some '/' then path
  else if root = "" ∨ root.toList.getLast? = some '/' then root ++ path
  else root ++ "/" ++ path

/-- Where the file of a class is looked for under a root. -/
def candidate (className root : String) : String :=
  join root (resourceName className)

/-- The places in which the file of a class is looked for, in this order. -/
def candidates (search : SearchPath) (className : String) : List String :=
  search.roots.map (candidate className)

/-- The first candidate that is a file, with its content. -/
def locate? (search : SearchPath) (files : FileStore) (className : String) :
    Option (String × Bytes) :=
  (search.candidates className).findSome? fun path => (files path).map (path, ·)

/-- The first candidate that is a file. -/
def find? (search : SearchPath) (files : FileStore) (className : String) : Option String :=
  (search.locate? files className).map Prod.fst

/-- Later roots count only if the earlier ones do not hold the file. -/
theorem locate?_append (roots others : List String) (files : FileStore) (className : String) :
    locate? ⟨roots ++ others⟩ files className =
      (locate? ⟨roots⟩ files className <|> locate? ⟨others⟩ files className) := by
  simp only [locate?, candidates, List.map_append, List.findSome?_append, Option.orElse_eq_or,
    Option.orElse_eq_orElse]

/-- The content of the first candidate that is a file.  Opening the file is reported. -/
def openClass (search : SearchPath) (files : FileStore) (className : String) : Report Bytes :=
  match search.locate? files className with
  | none => ⟨.error (.classNotFound className), []⟩
  | some (path, content) => ⟨.ok content, [.opened className path]⟩

/-- Reads a class by a layout from the first candidate that is a file. -/
def readClass (search : SearchPath) (files : FileStore) (layout : Layout) (className : String) :
    Report CompiledClass :=
  match search.openClass files className with
  | ⟨.error fault, log⟩ => ⟨.error fault, log⟩
  | ⟨.ok content, log⟩ =>
    let outcome := layout.read content
    ⟨outcome.result, log ++ outcome.log⟩

end SearchPath

end ClassAudit
