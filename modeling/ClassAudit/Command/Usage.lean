import ClassAudit.Command.Arguments

/-!
# Usage

The texts with which the program explains how it is called.
-/

namespace ClassAudit.Command

/-- How the program is called. -/
def usage : String := "classcheck <CLASS_NAME_INCLUDING_PACKAGE>"

/-- How the program is called with a flag. -/
def usageWith (flag : Flag) : String :=
  "classcheck --" ++ flag.name ++ " <CLASS_NAME_INCLUDING_PACKAGE>"

/-- The explanation of the program. -/
def helpText : String :=
  "Checks that a compiled class has the layout of a class with one public no-argument " ++
  "constructor. Classes are looked up in the directories listed in `CLASSPATH`\n\n" ++
  "Usage: " ++ usage ++ "\n\n" ++
  "Arguments:\n" ++
  "  <CLASS_NAME_INCLUDING_PACKAGE>  Fully qualified class name, e.g. `org.example.Foo`\n\n" ++
  "Options:\n" ++
  "  -h, --help     Print help\n" ++
  "  -V, --version  Print version\n"

/-- The version of the program. -/
def versionText : String := "classcheck 0.1.0\n"

/-- What a flag stands for. -/
def Flag.text : Flag → String
  | help => helpText
  | version => versionText

namespace UsageError

/-- What is wrong with the arguments. -/
def message : UsageError → String
  | missing =>
    "the following required arguments were not provided:\n  <CLASS_NAME_INCLUDING_PACKAGE>"
  | surplus argument => "unexpected argument '" ++ argument ++ "' found"
  | unknown option => "unexpected argument '" ++ option ++ "' found"
  | misspelled option _ => "unexpected argument '" ++ option ++ "' found"
  | unneededValue flag value =>
    "unexpected value '" ++ value ++ "' for '--" ++ flag.name ++
      "' found; no more were expected"

/-- What may have been meant. -/
def tip? : UsageError → Option String
  | unknown option => some ("to pass '" ++ option ++ "' as a value, use '-- " ++ option ++ "'")
  | misspelled _ meant => some ("a similar argument exists: '--" ++ meant.name ++ "'")
  | _ => none

/-- How the program should have been called. -/
def usage : UsageError → String
  | misspelled _ meant => usageWith meant
  | unneededValue flag _ => usageWith flag
  | _ => Command.usage

/-- The report of an error. -/
def text (wrong : UsageError) : String :=
  let tip :=
    match wrong.tip? with
    | some tip => "  tip: " ++ tip ++ "\n\n"
    | none => ""
  "error: " ++ wrong.message ++ "\n\n" ++ tip ++ "Usage: " ++ wrong.usage ++ "\n\n" ++
    "For more information, try '--help'.\n"

end UsageError

end ClassAudit.Command
