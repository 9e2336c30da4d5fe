/-!
# Hexadecimal text

Two spellings are used: a byte as two upper-case digits, for headers and opcodes, and a code point
as its lower-case digits without padding, for escapes inside quotes.
-/

namespace ClassAudit.Text.Hexadecimal

/-- A byte as two upper-case digits. -/
def byte (value : UInt8) : String :=
  .ofList [digit (value.toNat / 16), digit (value.toNat % 16)]
where
  /-- One upper-case digit of a number below sixteen. -/
  digit (number : Nat) : Char := (Nat.digitChar number).toUpper

/-- A number in lower-case digits, as few as there can be. -/
def number (value : Nat) : List Char :=
  Nat.toDigits 16 value

end ClassAudit.Text.Hexadecimal
