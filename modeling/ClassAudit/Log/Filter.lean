/-!
# Log levels and filters

Every line of a log has a level, which tells how grave it is, and a target, which tells what part
of the program wrote it.  A filter holds directives; each names the beginning of a target and the
least grave level that is shown for such targets.  Of the directives that fit a target, the one
with the longest name decides.
-/

namespace ClassAudit.Log

/-- The levels, the gravest one first. -/
inductive Level where
  | error
  | warning
  | info
  | debug
  | trace
deriving DecidableEq

namespace Level

/-- How far a level is from the gravest. -/
def rank : Level → Nat
  | error => 1
  | warning => 2
  | info => 3
  | debug => 4
  | trace => 5

/-- A level as it is shown, in five columns. -/
def label : Level → String
  | error => "ERROR"
  | warning => "WARN "
  | info => "INFO "
  | debug => "DEBUG"
  | trace => "TRACE"

end Level

/-- How many levels are shown, counted from the gravest. -/
abbrev Threshold := Nat

/-- The threshold with a name.  Upper and lower case are the same. -/
def thresholdOfName? (name : String) : Option Threshold :=
  [("off", 0), ("error", Level.error.rank), ("warn", Level.warning.rank),
    ("info", Level.info.rank), ("debug", Level.debug.rank), ("trace", Level.trace.rank)].lookup
      (name.map Char.toLower)

/-- What is shown of the targets that begin with a name. -/
structure Directive where
  target : String
  threshold : Threshold
deriving DecidableEq

namespace Directive

/-- The directive in a text: a threshold for all targets, a target with its threshold, or a target
of which everything is shown. -/
def ofText? (text : String) : Option Directive :=
  match (text.toList.splitOn '=').map String.ofList with
  | [name] =>
    match thresholdOfName? name with
    | some threshold => some ⟨"", threshold⟩
    | none => if name = "" then none else some ⟨name, Level.trace.rank⟩
  | [target, name] =>
    let name := name.trimAscii.toString
    if name = "" then some ⟨target, Level.trace.rank⟩
    else (thresholdOfName? name).map (⟨target, ·⟩)
  | _ => none

/-- Whether a target begins with the name of a directive. -/
def fits (directive : Directive) (target : String) : Bool :=
  directive.target.toList.isPrefixOf target.toList

end Directive

/-- A list of directives, in the order in which they were given. -/
structure Filter where
  directives : List Directive
deriving DecidableEq

namespace Filter

/-- The filter in a variable: its directives are separated by commas, and a filter without any
shows errors only. -/
def ofVariable (value : Option String) : Filter :=
  let texts := ((value.getD "").toList.splitOn ',').map String.ofList
  match texts.filterMap Directive.ofText? with
  | [] => ⟨[⟨"", Level.error.rank⟩]⟩
  | directives => ⟨directives⟩

/-- The threshold for a target: that of the longest name that fits, the last one if there are
several, and nothing is shown if none fits. -/
def threshold (filter : Filter) (target : String) : Threshold :=
  let chosen := (filter.directives.filter (·.fits target)).foldl longer none
  (chosen.map Directive.threshold).getD 0
where
  /-- The directive with the longer name, the later one if both are as long. -/
  longer (chosen : Option Directive) (next : Directive) : Option Directive :=
    match chosen with
    | none => some next
    | some earlier =>
      if next.target.length < earlier.target.length then some earlier else some next

/-- Whether a line of a level and a target is shown. -/
def shows (filter : Filter) (level : Level) (target : String) : Bool :=
  level.rank ≤ filter.threshold target

end Filter

end ClassAudit.Log
