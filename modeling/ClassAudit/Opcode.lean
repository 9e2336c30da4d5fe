import ClassAudit.Text.Hexadecimal

/-!
# Opcodes

The bytes that begin the instructions of a plain constructor: it loads the object under
construction, calls the constructor of the superclass and returns.
-/

namespace ClassAudit

/-- The byte that begins an instruction. -/
abbrev Opcode := UInt8

namespace Opcode

/-- Loads the object that the method was called on. -/
def loadThis : Opcode := 0x2A

/-- Calls a constructor. -/
def callConstructor : Opcode := 0xB7

/-- Returns without a value. -/
def returnVoid : Opcode := 0xB1

/-- The mnemonic of an opcode that a plain constructor holds. -/
def mnemonic? (opcode : Opcode) : Option String :=
  if opcode = loadThis then some "aload_0"
  else if opcode = callConstructor then some "invokespecial"
  else if opcode = returnVoid then some "return"
  else none

/-- An opcode in hexadecimal, behind its mnemonic if it has one. -/
def text (opcode : Opcode) : String :=
  let number := "0x" ++ Text.Hexadecimal.byte opcode
  match mnemonic? opcode with
  | some mnemonic => mnemonic ++ " (" ++ number ++ ")"
  | none => number

end Opcode

end ClassAudit
