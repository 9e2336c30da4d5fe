import ClassAudit.Constant
import ClassAudit.Access
import ClassAudit.Attribute.Basic

/-!
# Events

What a reader of classes reports on its way: the constants, methods and attributes that it comes
upon, and the file that it opens.  An event is a value; its text is made only when it is shown.
-/

namespace ClassAudit

/-- Something that a reader comes upon. -/
inductive Event where
  /-- A constant has been read. -/
  | constant (index : Nat) (found : Constant)
  /-- The fields in front of the attributes of a method have been read. -/
  | methodStart (access : Access) (nameIndex descriptorIndex attributesCount : UInt16)
  /-- The fields in front of an attribute have been read and its name is found. -/
  | attributeStart (name : String) (nameIndex : UInt16) (length : UInt32)
  /-- An attribute has been read. -/
  | attributeEnd (found : Attribute)
  /-- The file of a class has been opened. -/
  | opened (className path : String)

namespace Event

/-- The line that reports an event. -/
def text : Event → String
  | constant index found => toString index ++ ": " ++ found.text
  | methodStart access nameIndex descriptorIndex attributesCount =>
    "method access_flags=" ++ access.text ++ " name_index=" ++ toString nameIndex.toNat ++
      " descriptor_index=" ++ toString descriptorIndex.toNat ++ " attributes_count=" ++
      toString attributesCount.toNat
  | attributeStart name nameIndex length =>
    "attribute " ++ name ++ " (attribute_name_index=" ++ toString nameIndex.toNat ++
      ", attribute_length=" ++ toString length.toNat ++ ")"
  | attributeEnd found => "\t" ++ found.text
  | opened className path => "reading " ++ className ++ " from " ++ path

end Event

end ClassAudit
