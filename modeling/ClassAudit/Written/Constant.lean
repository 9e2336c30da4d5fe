import ClassAudit.Constant
import ClassAudit.Text.Payload
import ClassAudit.Written.Sequence

/-!
# Written constants

The bytes that stand for a constant in a class file: the byte of its kind, and then a text with its
length in front, or one or two indices.  A text has more than one written form, every other
constant has one.
-/

namespace ClassAudit

/-- The bytes stand for a constant. -/
inductive Constant.Written : Constant → Bytes → Prop where
  | utf8 {text : String} {payload : Bytes} (short : payload.length < 65536)
      (readable : Text.Payload.decode? payload = some text) :
      Written (.utf8 text) (Kind.utf8.tag :: (Bytes.ofUInt16 (.ofNat payload.length) ++ payload))
  | classEntry {nameIndex : UInt16} :
      Written (.classEntry nameIndex) (Kind.classEntry.tag :: Bytes.ofUInt16 nameIndex)
  | methodRef {classIndex nameAndTypeIndex : UInt16} :
      Written (.methodRef classIndex nameAndTypeIndex)
        (Kind.methodRef.tag :: (Bytes.ofUInt16 classIndex ++ Bytes.ofUInt16 nameAndTypeIndex))
  | nameAndType {nameIndex descriptorIndex : UInt16} :
      Written (.nameAndType nameIndex descriptorIndex)
        (Kind.nameAndType.tag :: (Bytes.ofUInt16 nameIndex ++ Bytes.ofUInt16 descriptorIndex))

end ClassAudit
