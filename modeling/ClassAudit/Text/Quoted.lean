import ClassAudit.Text.Hexadecimal

/-!
# Quoted text

Text that is shown inside a larger text stands between double quotes.  A quote and a backslash are
preceded by a backslash, four control characters have a letter of their own, and every other
character that must not be seen as it is becomes its number in hexadecimal.  Which characters
outside ASCII those are is a parameter: `hidden`.
-/

namespace ClassAudit.Text.Quoted

/-- A character written by its number. -/
def numbered (character : Char) : List Char :=
  ['\\', 'u', '\x7b'] ++ Hexadecimal.number character.toNat ++ ['\x7d']

/-- How one character is written between quotes. -/
def escape (hidden : Char → Bool) (character : Char) : List Char :=
  if character = '\x00' then ['\\', '0']
  else if character = '\t' then ['\\', 't']
  else if character = '\n' then ['\\', 'n']
  else if character = '\r' then ['\\', 'r']
  else if character = '"' then ['\\', '"']
  else if character = '\\' then ['\\', '\\']
  else if character < ' ' ∨ character = '\x7f' then numbered character
  else if character.toNat < 0x80 then [character]
  else if hidden character then numbered character
  else [character]

/-- The characters of a text as they are written between quotes. -/
def body (hidden : Char → Bool) (characters : List Char) : List Char :=
  characters.flatMap (escape hidden)

/-- A text between quotes. -/
def quote (hidden : Char → Bool) (text : String) : String :=
  .ofList ('"' :: (body hidden text.toList ++ ['"']))

end ClassAudit.Text.Quoted
