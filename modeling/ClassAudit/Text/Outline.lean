import ClassAudit.Text.Quoted

/-!
# Outlines of values

An outline is a value as it is shown to a reader: words, quoted texts, labels and bracketed groups
of further outlines.  It has two spellings.  `inline` puts all of it on one line; `spread` gives
every member of a group a line of its own, four columns further in, and ends that line with a
comma.  An empty group has nothing between its brackets in either spelling.
-/

namespace ClassAudit.Text

/-- The brackets around a group. -/
inductive Bracket where
  | round
  | square
  | curly
deriving DecidableEq

namespace Bracket

/-- What stands before the members of a group. -/
def opening : Bracket → String
  | round => "("
  | square => "["
  | curly => " \x7b"

/-- What stands behind the members of a group. -/
def closing : Bracket → String
  | round => ")"
  | square => "]"
  | curly => "\x7d"

/-- What separates the members from the brackets on one line. -/
def padding : Bracket → String
  | round => ""
  | square => ""
  | curly => " "

end Bracket

/-- A value as it is shown to a reader. -/
inductive Outline where
  /-- A word or a number, shown as it is. -/
  | word (text : String)
  /-- A text between quotes. -/
  | quoted (text : String)
  /-- A value behind its label. -/
  | labelled (label : String) (value : Outline)
  /-- A group of values in brackets behind a name, which may be empty. -/
  | group (name : String) (bracket : Bracket) (members : List Outline)

namespace Outline

/-- A number in decimal. -/
def number (value : Nat) : Outline :=
  .word (toString value)

/-- A named group of labelled values. -/
def fields (name : String) (members : List (String × Outline)) : Outline :=
  .group name .curly (members.map fun (label, value) => .labelled label value)

/-- A list of values. -/
def list (members : List Outline) : Outline :=
  .group "" .square members

/-- An outline on one line. -/
def inline (hidden : Char → Bool) : Outline → String
  | word text => text
  | quoted text => Quoted.quote hidden text
  | labelled label value => label ++ ": " ++ value.inline hidden
  | group name bracket members =>
    if members.isEmpty then name ++ bracket.opening ++ bracket.closing
    else
      name ++ bracket.opening ++ bracket.padding ++
        ", ".intercalate (members.map fun member => member.inline hidden) ++
        bracket.padding ++ bracket.closing

/-- An outline over several lines.  The first line starts where the outline is put, and every
later one with the margin. -/
def spread (hidden : Char → Bool) (margin : String) : Outline → String
  | word text => text
  | quoted text => Quoted.quote hidden text
  | labelled label value => label ++ ": " ++ value.spread hidden margin
  | group name bracket members =>
    if members.isEmpty then name ++ bracket.opening ++ bracket.closing
    else
      name ++ bracket.opening ++ "\n" ++
        String.join (members.map fun member =>
          margin ++ "    " ++ member.spread hidden (margin ++ "    ") ++ ",\n") ++
        margin ++ bracket.closing

end Outline

end ClassAudit.Text
