import ClassAudit.Method

/-!
# Compiled classes

What a class file holds, and the names in it.  A class and its superclass are named by way of two
entries of the constant pool, a method, its descriptor and the source file by way of one.
-/

namespace ClassAudit

/-- What a class file holds. -/
structure CompiledClass where
  majorVersion : UInt16
  minorVersion : UInt16
  pool : Pool
  access : Access
  thisClass : UInt16
  superClass : UInt16
  interfacesCount : UInt16
  fieldsCount : UInt16
  methods : List Method
  attributes : List Attribute

namespace CompiledClass

/-- The name of the class. -/
def name (compiled : CompiledClass) : Except Fault String :=
  compiled.pool.className compiled.thisClass

/-- The name of the superclass. -/
def superName (compiled : CompiledClass) : Except Fault String :=
  compiled.pool.className compiled.superClass

/-- The name of a method. -/
def methodName (compiled : CompiledClass) (method : Method) : Except Fault String :=
  compiled.pool.text method.nameIndex

/-- The descriptor of a method. -/
def methodDescriptor (compiled : CompiledClass) (method : Method) : Except Fault String :=
  compiled.pool.text method.descriptorIndex

/-- The name of the source file, if an attribute of the class gives one. -/
def sourceFile (compiled : CompiledClass) : Except Fault (Option String) :=
  match Attribute.firstSourceFile? compiled.attributes with
  | none => .ok none
  | some nameIndex => (compiled.pool.text nameIndex).map some

/-- A class as it is shown. -/
def outline (compiled : CompiledClass) : Text.Outline :=
  .fields "ClassFile" [
    ("version", .group "" .round
      [.number compiled.majorVersion.toNat, .number compiled.minorVersion.toNat]),
    ("constant_pool", compiled.pool.outline),
    ("access_flags", .word compiled.access.text),
    ("this_class", .number compiled.thisClass.toNat),
    ("super_class", .number compiled.superClass.toNat),
    ("interfaces_count", .number compiled.interfacesCount.toNat),
    ("fields_count", .number compiled.fieldsCount.toNat),
    ("methods", .list (compiled.methods.map Method.outline)),
    ("attributes", Attribute.outlineAll compiled.attributes)]

/-- A class over several lines. -/
def text (compiled : CompiledClass) : String :=
  compiled.outline.spread Text.Unprinted.contains ""

end CompiledClass

end ClassAudit
