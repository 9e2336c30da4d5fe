import ClassAudit.CompiledClass

/-!
# Layouts

A layout fixes what a class file with a single constructor has to look like: its version, its
access flags, the number of its constants, the indices that point into them, and a constructor
whose body loads the object, calls the constructor of the superclass and returns.

What a layout asks of a constructor is a list of checks.  The checks on the body come last, and
there are none if the first attribute is not a body, because then the check on its kind has failed
already.
-/

namespace ClassAudit

/-- What is asked of the constructor of a class. -/
structure ConstructorLayout where
  access : Access
  nameIndex : UInt16
  descriptorIndex : UInt16
  maxStack : UInt16
  maxLocals : UInt16
  superConstructorIndex : UInt16
  codeAttributesCount : UInt16
deriving DecidableEq

/-- What is asked of a class. -/
structure Layout where
  majorVersion : UInt16
  minorVersion : UInt16
  constantPoolCount : UInt16
  access : Access
  thisClass : UInt16
  superClass : UInt16
  constructor : ConstructorLayout
  sourceFileIndex : UInt16
deriving DecidableEq

/-- A check on a number. -/
def Check.number (field : Field) (expected actual : Nat) : Check :=
  ⟨field, .number expected, .number actual⟩

/-- A check on the kind of the first of some attributes. -/
def Check.firstAttribute (field : Field) (expected : Attribute.Kind)
    (attributes : List Attribute) : Check :=
  ⟨field, .attributeKind expected, .ofAttribute? attributes.head?⟩

namespace ConstructorLayout

/-- A public constructor without arguments, as a compiler writes it for a class that declares
none. -/
def standard : ConstructorLayout where
  access := .ofFlag .isPublic
  nameIndex := 4
  descriptorIndex := 5
  maxStack := 1
  maxLocals := 1
  superConstructorIndex := 1
  codeAttributesCount := 2

/-- What is asked of the body of a constructor. -/
def codeChecks (layout : ConstructorLayout) (code : Code) : List Check := [
  .number .maxStack layout.maxStack.toNat code.maxStack.toNat,
  .number .maxLocals layout.maxLocals.toNat code.maxLocals.toNat,
  .number .codeLength 5 code.bytecode.length,
  .number .handlersCount 0 code.handlers.length,
  .number .codeAttributesCount layout.codeAttributesCount.toNat code.attributes.length,
  ⟨.firstOpcode, .opcode .loadThis, .ofOpcode? code.bytecode[0]?⟩,
  ⟨.secondOpcode, .opcode .callConstructor, .ofOpcode? code.bytecode[1]?⟩,
  ⟨.calledConstructor, .number layout.superConstructorIndex.toNat,
    .ofOperand? code.bytecode[2]? code.bytecode[3]?⟩,
  ⟨.lastOpcode, .opcode .returnVoid, .ofOpcode? code.bytecode[4]?⟩]

/-- What is asked of a constructor. -/
def checks (layout : ConstructorLayout) (method : Method) : List Check := [
  ⟨.methodAccessFlags, .access layout.access, .access method.access⟩,
  .number .methodNameIndex layout.nameIndex.toNat method.nameIndex.toNat,
  .number .methodDescriptorIndex layout.descriptorIndex.toNat method.descriptorIndex.toNat,
  .number .methodAttributesCount 1 method.attributes.length,
  .firstAttribute .methodAttribute .code method.attributes] ++
  match method.attributes.head? with
  | some (.code code) => layout.codeChecks code
  | _ => []

end ConstructorLayout

namespace Layout

/-- A public class as a compiler writes it that declares nothing. -/
def standard : Layout where
  majorVersion := 49
  minorVersion := 0
  constantPoolCount := 16
  access := .union (.ofFlag .isPublic) (.ofFlag .isSuper)
  thisClass := 2
  superClass := 3
  constructor := .standard
  sourceFileIndex := 12

/-- The bytes at the front of a class file: four that are always the same and the version. -/
def header (layout : Layout) : Bytes :=
  [0xCA, 0xFE, 0xBA, 0xBE] ++ Bytes.ofUInt16 layout.minorVersion ++
    Bytes.ofUInt16 layout.majorVersion

/-- What is asked of the attributes of a class. -/
def attributeChecks (layout : Layout) (attributes : List Attribute) : List Check :=
  [.firstAttribute .classAttribute .sourceFile attributes] ++
  match attributes.head? with
  | some (.sourceFile nameIndex) =>
    [.number .sourceFileIndex layout.sourceFileIndex.toNat nameIndex.toNat]
  | _ => []

end Layout

end ClassAudit
