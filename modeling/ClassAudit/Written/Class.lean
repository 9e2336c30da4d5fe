import ClassAudit.Layout.Basic
import ClassAudit.Written.Attribute
import ClassAudit.Written.Constant

/-!
# Written classes

The bytes that stand for a method, and those that stand for a class of a given layout.  The bytes
that are the same in every class are written out here.
-/

namespace ClassAudit

/-- The bytes stand for a method. -/
structure Method.Written (pool : Pool) (method : Method) (bytes : Bytes) : Prop where
  attributes_short : method.attributes.length < 65536
  spelled : ∃ inner, Written.Sequence (Attribute.Written pool) method.attributes inner ∧
    bytes = Bytes.ofUInt16 method.access.bits ++ Bytes.ofUInt16 method.nameIndex ++
      Bytes.ofUInt16 method.descriptorIndex ++
      Bytes.ofUInt16 (.ofNat method.attributes.length) ++ inner

/-- A body is what a layout asks of the body of a constructor. -/
structure ConstructorLayout.Describes (layout : ConstructorLayout) (code : Code) : Prop where
  maxStack : code.maxStack = layout.maxStack
  maxLocals : code.maxLocals = layout.maxLocals
  bytecode : code.bytecode = [0x2A, 0xB7] ++ Bytes.ofUInt16 layout.superConstructorIndex ++ [0xB1]
  handlers : code.handlers = []
  attributes : code.attributes.length = layout.codeAttributesCount.toNat

/-- The constructor of a layout with a given body. -/
def ConstructorLayout.method (layout : ConstructorLayout) (code : Code) : Method where
  access := layout.access
  nameIndex := layout.nameIndex
  descriptorIndex := layout.descriptorIndex
  attributes := [.code code]

/-- The class of a layout with given constants and a given body of its constructor. -/
def Layout.compiled (layout : Layout) (pool : Pool) (code : Code) : CompiledClass where
  majorVersion := layout.majorVersion
  minorVersion := layout.minorVersion
  pool := pool
  access := layout.access
  thisClass := layout.thisClass
  superClass := layout.superClass
  interfacesCount := 0
  fieldsCount := 0
  methods := [layout.constructor.method code]
  attributes := [.sourceFile layout.sourceFileIndex]

/-- The bytes that every class begins with, and its version. -/
def Layout.opening (layout : Layout) : Bytes :=
  [0xCA, 0xFE, 0xBA, 0xBE] ++ Bytes.ofUInt16 layout.minorVersion ++
    Bytes.ofUInt16 layout.majorVersion

/-- The fields of a class between its constants and its methods. -/
def Layout.middle (layout : Layout) : Bytes :=
  Bytes.ofUInt16 layout.access.bits ++ Bytes.ofUInt16 layout.thisClass ++
    Bytes.ofUInt16 layout.superClass ++ Bytes.ofUInt16 0 ++ Bytes.ofUInt16 0 ++ Bytes.ofUInt16 1

/-- The bytes stand for a class of a layout with given constants and a given body of its
constructor. -/
structure Layout.Written (layout : Layout) (pool : Pool) (code : Code) (bytes : Bytes) : Prop where
  counted : pool.size = layout.constantPoolCount.toNat - 1
  described : layout.constructor.Describes code
  spelled : ∃ constants constructor sourceFile,
    Written.Sequence Constant.Written pool.toList constants ∧
    Method.Written pool (layout.constructor.method code) constructor ∧
    Attribute.Written pool (.sourceFile layout.sourceFileIndex) sourceFile ∧
    bytes = layout.opening ++ Bytes.ofUInt16 layout.constantPoolCount ++ constants ++
      layout.middle ++ constructor ++ Bytes.ofUInt16 1 ++ sourceFile

end ClassAudit
