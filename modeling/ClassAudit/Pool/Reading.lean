import ClassAudit.Pool.Basic
import ClassAudit.Reader
import ClassAudit.Text.Payload

/-!
# Reading a constant pool

A constant is a byte that tells its kind and then what the kind asks for: a text is its length in
bytes and the bytes, the other kinds are one or two indices.  A pool is read by its count, which is
one more than the number of its entries; the counts zero and one both announce a pool without
entries.
-/

namespace ClassAudit

/-- What follows the byte that tells the kind of a constant. -/
def Constant.readContent : Constant.Kind → Reader Constant
  | .utf8 => do
    let length ← Reader.uint16
    let payload ← Reader.take .variable length.toNat
    match Text.Payload.decode? payload with
    | some text => return .utf8 text
    | none => Reader.fail .invalidText
  | .classEntry => do
    let nameIndex ← Reader.uint16
    return .classEntry nameIndex
  | .methodRef => do
    let classIndex ← Reader.uint16
    let nameAndTypeIndex ← Reader.uint16
    return .methodRef classIndex nameAndTypeIndex
  | .nameAndType => do
    let nameIndex ← Reader.uint16
    let descriptorIndex ← Reader.uint16
    return .nameAndType nameIndex descriptorIndex

/-- One constant. -/
def Constant.read : Reader Constant := do
  let tag ← Reader.uint8
  match Constant.Kind.ofTag? tag with
  | some kind => Constant.readContent kind
  | none => Reader.fail (.unknownTag tag)

/-- The constant that becomes the entry at an index, which is reported. -/
def Constant.readEntry (index : Nat) : Reader Constant := do
  let constant ← Constant.read
  Reader.report (.constant index constant)
  return constant

/-- The constant pool that a count announces. -/
def Pool.read (count : UInt16) : Reader Pool := do
  let constants ← Reader.repeatedFrom 1 (count.toNat - 1) Constant.readEntry
  return Pool.ofList constants

end ClassAudit
