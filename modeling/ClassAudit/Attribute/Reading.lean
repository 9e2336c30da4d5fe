import ClassAudit.Pool.Basic
import ClassAudit.Reader

/-!
# Reading attributes

An attribute is the index of its name, a length, and what its kind asks for.  The length counts
for three of the four kinds: a source file has to announce two bytes, and a table is as long as it
announces.  A body is read by the lengths inside it, and its own length is passed over.

A body may hold attributes of every kind but its own, so attributes are read in two places:
`Attribute.read` is used for those of a class or a method and `Attribute.readNested` for those of a
body.  Both are `Attribute.readWith`, which is told what to do about a body.
-/

namespace ClassAudit

/-- What follows the name and the length of an attribute. -/
def Attribute.readContent (body : Reader Code) (length : UInt32) :
    Attribute.Kind → Reader Attribute
  | .code => do
    let found ← body
    return .code found
  | .sourceFile =>
    if length = 2 then do
      let nameIndex ← Reader.uint16
      return .sourceFile nameIndex
    else Reader.fail (.sourceFileLength length)
  | .lineNumberTable => do
    let _ ← Reader.take .variable length.toNat
    return .lineNumberTable length
  | .localVariableTable => do
    let _ ← Reader.take .variable length.toNat
    return .localVariableTable length

/-- An attribute, given how a body is read. -/
def Attribute.readWith (body : Reader Code) (pool : Pool) : Reader Attribute := do
  let nameIndex ← Reader.uint16
  let length ← Reader.uint32
  -- the name is looked up only when both numbers are there
  let name ← Reader.ofExcept (pool.text nameIndex)
  Reader.report (.attributeStart name nameIndex length)
  match Attribute.Kind.ofName? name with
  | none => Reader.fail (.unknownAttribute name)
  | some kind =>
    let found ← Attribute.readContent body length kind
    Reader.report (.attributeEnd found)
    return found

/-- An attribute of a body, which cannot be a body itself. -/
def Attribute.readNested (pool : Pool) : Reader Attribute :=
  Attribute.readWith (Reader.fail .nestedCode) pool

/-- A handler of a body. -/
def Handler.read : Reader Handler := do
  let startPc ← Reader.uint16
  let endPc ← Reader.uint16
  let handlerPc ← Reader.uint16
  let catchType ← Reader.uint16
  return ⟨startPc, endPc, handlerPc, catchType⟩

/-- The body of a method. -/
def Code.read (pool : Pool) : Reader Code := do
  let maxStack ← Reader.uint16
  let maxLocals ← Reader.uint16
  let codeLength ← Reader.uint32
  let bytecode ← Reader.take .variable codeLength.toNat
  let handlersCount ← Reader.uint16
  let handlers ← Reader.repeated handlersCount.toNat Handler.read
  let attributesCount ← Reader.uint16
  let attributes ← Reader.repeated attributesCount.toNat (Attribute.readNested pool)
  return ⟨maxStack, maxLocals, bytecode, handlers, attributes⟩

/-- An attribute of a class or of a method. -/
def Attribute.read (pool : Pool) : Reader Attribute :=
  Attribute.readWith (Code.read pool) pool

/-- A number of attributes of a class or of a method. -/
def Attribute.readAll (count : UInt16) (pool : Pool) : Reader (List Attribute) :=
  Reader.repeated count.toNat (Attribute.read pool)

end ClassAudit
