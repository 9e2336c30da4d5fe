import ClassAudit.Lookup.SearchPath

/-!
# File trees

A file tree is a tree of directories and regular files below a current directory.  Looking a path
up walks through its components: an empty component and a dot stay where they are, two dots go to
the parent, and every other component enters what it names.  Only a directory can be walked
through.  A path that leaves the tree leads nowhere, and so does one that is too long for a file
system to hold.
-/

namespace ClassAudit

namespace FileTree

/-- A place in a tree: the components that lead to it, the deepest one in front. -/
abbrev Place := List String

/-- What can be at a place. -/
inductive Entry where
  | directory
  | file (content : Bytes)
deriving DecidableEq

end FileTree

/-- The entries of a tree, each at its own place.  The current directory itself is not listed. -/
structure FileTree where
  entries : List (FileTree.Place × FileTree.Entry)

namespace FileTree

/-- The tree of an empty directory. -/
def empty : FileTree := ⟨[]⟩

/-- What is at a place. -/
def entry? (tree : FileTree) (place : Place) : Option Entry :=
  if place = [] then some .directory else tree.entries.lookup place

/-- Puts an entry at a place, instead of what was there. -/
def put (tree : FileTree) (place : Place) (entry : Entry) : FileTree :=
  ⟨(place, entry) :: tree.entries.filter fun listed => listed.1 ≠ place⟩

/-- The components of a path. -/
def components (path : String) : List String :=
  (path.toList.splitOn '/').map String.ofList

/-- The place that components name from a given place on, without regard to what is there. -/
def place (start : Place) : List String → Place
  | [] => start
  | component :: rest =>
    if component = "" ∨ component = "." then place start rest
    else if component = ".." then place start.tail rest
    else place (component :: start) rest

/-- Makes a directory wherever a place or one above it holds nothing. -/
def makeDirectories (tree : FileTree) : Place → FileTree
  | [] => tree
  | component :: parent =>
    let above := tree.makeDirectories parent
    match above.entry? (component :: parent) with
    | some _ => above
    | none => above.put (component :: parent) .directory

/-- Makes the directory at a path and those above it. -/
def makeDirectory (tree : FileTree) (path : String) : FileTree :=
  tree.makeDirectories (place [] (components path))

/-- Writes a file at a path and makes the directories above it. -/
def write (tree : FileTree) (path : String) (content : Bytes) : FileTree :=
  let target := place [] (components path)
  (tree.makeDirectories target.tail).put target (.file content)

/-- Removes the file at a path. -/
def remove (tree : FileTree) (path : String) : FileTree :=
  let target := place [] (components path)
  ⟨tree.entries.filter fun listed => listed.1 ≠ target⟩

/-- The most bytes a component can have. -/
def componentLimit : Nat := 255

/-- The number of bytes that a path cannot have any more. -/
def pathLimit : Nat := 4096

/-- Where components lead from a place, if each of them is met in a directory. -/
def walk (tree : FileTree) (current : Place) : List String → Option Place
  | [] => some current
  | component :: rest =>
    if component = "" then tree.walk current rest
    else if tree.entry? current ≠ some .directory then none
    else if component = "." then tree.walk current rest
    else if component = ".." then
      match current with
      | [] => none
      | _ :: parent => tree.walk parent rest
    else if componentLimit < component.utf8ByteSize then none
    else tree.walk (component :: current) rest

/-- What the file at a path holds, if there is one. -/
def read? (tree : FileTree) (path : String) : Option Bytes :=
  if path.toList.head? = some '/' ∨ '\x00' ∈ path.toList ∨ pathLimit ≤ path.utf8ByteSize then none
  else
    match (tree.walk [] (components path)).bind tree.entry? with
    | some (.file content) => some content
    | _ => none

/-- The regular files of a tree. -/
def files (tree : FileTree) : FileStore := tree.read?

end FileTree

end ClassAudit
