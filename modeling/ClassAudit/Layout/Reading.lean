import ClassAudit.Layout.Basic
import ClassAudit.Pool.Reading

/-!
# Reading a class by its layout

A class file is read from front to back.  Every number that the layout fixes is held against it
before the next field is read, with two exceptions: the constructor is read to its end before it is
checked, and so are the attributes of the class.  Bytes behind the class are not looked at.
-/

namespace ClassAudit

namespace Reader

/-- A number that has to be the expected one. -/
def expect (field : Field) (expected : UInt16) : Reader UInt16 := do
  let actual ← uint16
  check (.number field expected.toNat actual.toNat)
  return actual

/-- A set of access flags that has to be the expected one. -/
def expectAccess (field : Field) (expected : Access) : Reader Access := do
  let actual ← access
  check ⟨field, .access expected, .access actual⟩
  return actual

/-- The first bytes of a class file. -/
def header : Reader Bytes :=
  take .fixed 8

/-- The first bytes of a class file, which have to be the expected ones. -/
def expectHeader (expected : Bytes) : Reader Unit := do
  let actual ← header
  if actual = expected then return () else fail (.header expected actual)

end Reader

/-- Reads a class and fails at the first field that is not as the layout fixes it. -/
def Layout.read (layout : Layout) : Reader CompiledClass := do
  Reader.expectHeader layout.header
  let constantPoolCount ← Reader.expect .constantPoolCount layout.constantPoolCount
  let pool ← Pool.read constantPoolCount
  let access ← Reader.expectAccess .accessFlags layout.access
  let thisClass ← Reader.expect .thisClass layout.thisClass
  let superClass ← Reader.expect .superClass layout.superClass
  let interfacesCount ← Reader.expect .interfacesCount 0
  let fieldsCount ← Reader.expect .fieldsCount 0
  let _ ← Reader.expect .methodsCount 1
  -- a fault inside the constructor comes before any check on it
  let method ← Method.read pool
  Reader.checkAll (layout.constructor.checks method)
  let attributesCount ← Reader.expect .attributesCount 1
  let attributes ← Attribute.readAll attributesCount pool
  Reader.checkAll (layout.attributeChecks attributes)
  return {
    majorVersion := layout.majorVersion
    minorVersion := layout.minorVersion
    pool, access, thisClass, superClass, interfacesCount, fieldsCount
    methods := [method]
    attributes }

end ClassAudit
