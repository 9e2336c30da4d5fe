import ClassAudit.Command.Similarity

/-!
# Arguments

The program is called with the name of one class.  Two flags ask for something else, each with a
long and a short name, and two dashes by themselves say that no flags follow.  Arguments are looked
at from left to right, and the first flag or error decides.
-/

namespace ClassAudit.Command

/-- The flags of the program. -/
inductive Flag where
  | help
  | version
deriving DecidableEq

namespace Flag

/-- The long name of a flag. -/
def name : Flag → String
  | help => "help"
  | version => "version"

/-- The flag with a long name. -/
def ofName? (name : String) : Option Flag :=
  if name = "help" then some help
  else if name = "version" then some version
  else none

/-- The flag with a letter. -/
def ofLetter? (letter : Char) : Option Flag :=
  if letter = 'h' then some help
  else if letter = 'V' then some version
  else none

/-- How alike a flag and a misspelled one have to be for the flag to be suggested. -/
def leastSimilarity : Float := 0.7

/-- The flag that is most like a long name, if one is like it at all. -/
def similar? (name : String) : Option Flag :=
  let measure (flag : Flag) := Similarity.jaro name.toList flag.name.toList
  if leastSimilarity < measure help && measure version < measure help then some help
  else if leastSimilarity < measure version then some version
  else none

end Flag

/-- What the program is asked to do. -/
inductive Request where
  /-- To check a class. -/
  | check (className : String)
  /-- To print what a flag stands for. -/
  | explain (flag : Flag)
deriving DecidableEq

/-- Why arguments are not understood. -/
inductive UsageError where
  /-- There is no class name. -/
  | missing
  /-- There is an argument after the class name. -/
  | surplus (argument : String)
  /-- An option is not known. -/
  | unknown (option : String)
  /-- An option is not known but like a flag. -/
  | misspelled (option : String) (meant : Flag)
  /-- A flag has a value. -/
  | unneededValue (flag : Flag) (value : String)
deriving DecidableEq

namespace UsageError

/-- An option that is not known by its long name. -/
def ofUnknown (name : String) : UsageError :=
  match Flag.similar? name with
  | some flag => misspelled ("--" ++ name) flag
  | none => unknown ("--" ++ name)

end UsageError

namespace Request

/-- What a long option asks for: its name and, behind a sign of equality, its value. -/
def ofLong (body : List Char) : Except UsageError Request :=
  let name := String.ofList (body.takeWhile (· ≠ '='))
  match Flag.ofName? name, body.dropWhile (· ≠ '=') with
  | some flag, [] => .ok (.explain flag)
  | some flag, _ :: value => .error (.unneededValue flag (.ofList value))
  | none, _ => .error (.ofUnknown name)

/-- What a letter behind a dash asks for.  Letters behind it would never be looked at. -/
def ofLetter (letter : Char) : Except UsageError Request :=
  match Flag.ofLetter? letter with
  | some flag => .ok (.explain flag)
  | none => .error (.unknown (.ofList ['-', letter]))

/-- What is asked for by one more argument that is not an option. -/
def withName (found : Option String) (argument : String)
    (next : Option String → Except UsageError Request) : Except UsageError Request :=
  match found with
  | none => next (some argument)
  | some _ => .error (.surplus argument)

/-- What arguments without options ask for, behind a class name that may have been found. -/
def ofNames (found : Option String) : List String → Except UsageError Request
  | [] =>
    match found with
    | some className => .ok (.check className)
    | none => .error .missing
  | argument :: rest => withName found argument fun found => ofNames found rest

/-- What arguments ask for, behind a class name that may have been found. -/
def ofRest (found : Option String) : List String → Except UsageError Request
  | [] => ofNames found []
  | argument :: rest =>
    match argument.toList with
    | ['-', '-'] => ofNames found rest
    | '-' :: '-' :: body => ofLong body
    | '-' :: letter :: _ => ofLetter letter
    | _ => withName found argument fun found => ofRest found rest

/-- What arguments ask for. -/
def ofArguments (arguments : List String) : Except UsageError Request :=
  ofRest none arguments

end Request

end ClassAudit.Command
