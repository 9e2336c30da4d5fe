import ClassAudit.Constant
import ClassAudit.Mismatch

/-!
# Faults

The reasons for which a class is not accepted, and the sentence that reports each of them.
-/

namespace ClassAudit

/-- How the extent of a field is known: by its type, or by a length that was read before it. -/
inductive Extent where
  | fixed
  | variable
deriving DecidableEq

/-- A reason for which a class is not accepted. -/
inductive Fault where
  /-- No file holds the class. -/
  | classNotFound (name : String)
  /-- The input ends inside a field. -/
  | endOfInput (extent : Extent)
  /-- The file does not begin as it should. -/
  | header (expected actual : Bytes)
  /-- A field has another value than the layout fixes. -/
  | mismatch (check : Check)
  /-- No constant begins with this byte. -/
  | unknownTag (tag : UInt8)
  /-- The pool has no entry at this index. -/
  | invalidIndex (index : UInt16)
  /-- The entry at this index is of another kind. -/
  | unexpectedConstant (expected : Constant.Kind) (index : UInt16) (found : Constant)
  /-- The bytes of a text entry follow no encoding. -/
  | invalidText
  /-- A body stands inside a body. -/
  | nestedCode
  /-- An attribute has a name that is not known. -/
  | unknownAttribute (name : String)
  /-- The attribute that names the source file has another length than its one index needs. -/
  | sourceFileLength (length : UInt32)
deriving DecidableEq

namespace Fault

/-- Bytes in hexadecimal, as a list. -/
def listed (bytes : Bytes) : String :=
  "[" ++ ", ".intercalate (bytes.map Text.Hexadecimal.byte) ++ "]"

/-- The sentence that reports a fault. -/
def message : Fault → String
  | classNotFound name => "Class not found: " ++ name
  | endOfInput .fixed => "failed to fill whole buffer"
  | endOfInput .variable => "unexpected end of file"
  | header expected actual =>
    "Unexpected header: expected " ++ listed expected ++ ", found " ++ listed actual
  | mismatch check =>
    "Unexpected " ++ check.field.name ++ ": expected " ++ check.expected.text ++ ", found " ++
      check.actual.text
  | unknownTag tag => "Invalid cp info tag: " ++ toString tag.toNat
  | invalidIndex index => "Invalid constant pool index: " ++ toString index.toNat
  | unexpectedConstant expected index found =>
    "Expected " ++ expected.name ++ " at constant pool index " ++ toString index.toNat ++
      ", found " ++ found.text
  | invalidText => "Invalid modified UTF-8 string in constant pool"
  | nestedCode => "Code attribute nested inside a Code attribute"
  | unknownAttribute name => "Unknown attribute: " ++ name
  | sourceFileLength length =>
    "Invalid SourceFile attribute length: expected 2, found " ++ toString length.toNat

end Fault

end ClassAudit
