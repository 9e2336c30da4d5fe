import ClassAudit.Access
import ClassAudit.Attribute.Basic
import ClassAudit.Opcode

/-!
# Mismatches

A layout fixes the value of many fields of a class file.  A check holds one such value against the
value that was found, and a check that fails is a mismatch.
-/

namespace ClassAudit

/-- The fields whose value a layout fixes, in the order in which they are checked. -/
inductive Field where
  | constantPoolCount
  | accessFlags
  | thisClass
  | superClass
  | interfacesCount
  | fieldsCount
  | methodsCount
  | methodAccessFlags
  | methodNameIndex
  | methodDescriptorIndex
  | methodAttributesCount
  | methodAttribute
  | maxStack
  | maxLocals
  | codeLength
  | handlersCount
  | codeAttributesCount
  | firstOpcode
  | secondOpcode
  | calledConstructor
  | lastOpcode
  | attributesCount
  | classAttribute
  | sourceFileIndex
deriving DecidableEq

namespace Field

/-- The name of a field. -/
def name : Field → String
  | constantPoolCount => "constant_pool_count"
  | accessFlags => "access_flags"
  | thisClass => "this_class"
  | superClass => "super_class"
  | interfacesCount => "interfaces_count"
  | fieldsCount => "fields_count"
  | methodsCount => "methods_count"
  | methodAccessFlags => "method access_flags"
  | methodNameIndex => "method name_index"
  | methodDescriptorIndex => "method descriptor_index"
  | methodAttributesCount => "method attributes_count"
  | methodAttribute => "method attributes[0]"
  | maxStack => "max_stack"
  | maxLocals => "max_locals"
  | codeLength => "code_length"
  | handlersCount => "exception_table_length"
  | codeAttributesCount => "code attributes_count"
  | firstOpcode => "code[0]"
  | secondOpcode => "code[1]"
  | calledConstructor => "invokespecial index"
  | lastOpcode => "code[4]"
  | attributesCount => "attributes_count"
  | classAttribute => "attributes[0]"
  | sourceFileIndex => "sourcefile_index"

end Field

/-- The value of a field. -/
inductive Value where
  | number (value : Nat)
  | access (flags : Access)
  | opcode (byte : Opcode)
  /-- An attribute, of which only the kind is compared. -/
  | attributeKind (kind : Attribute.Kind)
  /-- The value of a field that is not there. -/
  | nothing
deriving DecidableEq

namespace Value

/-- A value as it is shown. -/
def text : Value → String
  | number value => toString value
  | access flags => flags.text
  | opcode byte => byte.text
  | attributeKind kind => kind.name
  | nothing => "nothing"

/-- The opcode at a position of a body, or nothing behind its end. -/
def ofOpcode? (found : Option Opcode) : Value :=
  match found with
  | some byte => .opcode byte
  | none => .nothing

/-- The number in the two bytes behind an opcode, or nothing behind the end of a body. -/
def ofOperand? (upper lower : Option UInt8) : Value :=
  match upper, lower with
  | some upper, some lower => .number (Bytes.value [upper, lower])
  | _, _ => .nothing

/-- The kind of an attribute, or nothing where there is none. -/
def ofAttribute? (found : Option Attribute) : Value :=
  match found with
  | some item => .attributeKind item.kind
  | none => .nothing

end Value

/-- A field with the value that a layout fixes and the value that was found. -/
structure Check where
  field : Field
  expected : Value
  actual : Value
deriving DecidableEq

namespace Check

/-- A check passes if the two values are the same. -/
def passes (check : Check) : Bool :=
  check.expected = check.actual

/-- The first of several checks that does not pass. -/
def firstFailure? (checks : List Check) : Option Check :=
  checks.find? fun check => !check.passes

end Check

end ClassAudit
