import ClassAudit.Log.Filter
import ClassAudit.Lookup.SearchPath

/-!
# Notices

What the program writes to its log, and how a log is laid out.  Every notice has a level, a target
and a text.  On the page the targets stand in a column that becomes wider whenever a longer target
is shown for the first time, and never narrower.
-/

namespace ClassAudit.Log

/-- Something that the program writes to its log. -/
inductive Notice where
  /-- The directories in which a class will be looked up. -/
  | searching (search : SearchPath)
  /-- Something that a reader came upon. -/
  | event (event : Event)
  /-- A class is as its layout fixes it. -/
  | accepted (className : String)
  /-- What an accepted class holds. -/
  | contents (compiled : CompiledClass)
  /-- A class is not accepted. -/
  | rejected (className : String) (fault : Fault)
  /-- The file of a class cannot be read. -/
  | unreadable (className reason : String)

namespace Notice

/-- The level of a notice. -/
def level : Notice → Level
  | accepted _ => .info
  | rejected _ _ => .error
  | unreadable _ _ => .error
  | _ => .debug

/-- The target of a notice: the program itself, its search for a file or its reading of one. -/
def target : Notice → String
  | event (.opened _ _) => "classcheck_class_file::class_path"
  | event _ => "classcheck_class_file::parser"
  | _ => "classcheck"

/-- The text of a notice. -/
def text : Notice → String
  | searching search =>
    "class path: " ++
      (Text.Outline.list (search.roots.map .quoted)).inline Text.Unprinted.contains
  | event found => found.text
  | accepted className => className ++ " matches the expected layout"
  | contents compiled => compiled.text
  | rejected className fault => className ++ ": " ++ fault.message
  | unreadable className reason => className ++ ": " ++ reason

/-- A notice on the page, its target in a column of a given width. -/
def line (width : Nat) (notice : Notice) : String :=
  " " ++ notice.level.label ++ " " ++
    .ofList (notice.target.toList ++ .replicate (width - notice.target.length) ' ') ++ " > " ++
    notice.text ++ "\n"

end Notice

/-- Writes notices behind a page that is written already, in which the column of targets has a
given width. -/
def writeOnto (page : String) (width : Nat) : List Notice → String
  | [] => page
  | notice :: rest =>
    let wide := max width notice.target.length
    writeOnto (page ++ notice.line wide) wide rest

/-- The page of those notices that a filter shows. -/
def page (filter : Filter) (notices : List Notice) : String :=
  writeOnto "" 0 (notices.filter fun notice => filter.shows notice.level notice.target)

end ClassAudit.Log
