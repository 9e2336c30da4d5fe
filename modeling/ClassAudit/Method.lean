import ClassAudit.Attribute.Reading

/-!
# Methods

A method is its access flags, the indices of its name and of its descriptor, and its attributes.
-/

namespace ClassAudit

/-- A method of a class. -/
structure Method where
  access : Access
  nameIndex : UInt16
  descriptorIndex : UInt16
  attributes : List Attribute

namespace Method

/-- Reads a method.  The fields in front of its attributes are reported before these are read. -/
def read (pool : Pool) : Reader Method := do
  let access ← Reader.access
  let nameIndex ← Reader.uint16
  let descriptorIndex ← Reader.uint16
  let attributesCount ← Reader.uint16
  Reader.report (.methodStart access nameIndex descriptorIndex attributesCount)
  let attributes ← Attribute.readAll attributesCount pool
  return ⟨access, nameIndex, descriptorIndex, attributes⟩

/-- A method as it is shown. -/
def outline (method : Method) : Text.Outline :=
  .fields "MethodInfo" [
    ("access_flags", .word method.access.text),
    ("name_index", .number method.nameIndex.toNat),
    ("descriptor_index", .number method.descriptorIndex.toNat),
    ("attributes", Attribute.outlineAll method.attributes)]

end Method

end ClassAudit
