import ClassAudit.Pool.Basic
import ClassAudit.Written.Sequence

/-!
# Written attributes

The bytes that stand for an attribute in a class file, given the constant pool in which its name is
looked up.  An attribute has many written forms: any index of its name will do, a table may hold
any bytes, and the length in front of a body may be any number.
-/

namespace ClassAudit

/-- The bytes in front of an attribute: the index of its name and a length. -/
def Attribute.header (nameIndex : UInt16) (length : UInt32) : Bytes :=
  Bytes.ofUInt16 nameIndex ++ Bytes.ofUInt32 length

/-- A pool holds the name of a kind of attributes at an index. -/
def Attribute.Kind.NamedAt (kind : Kind) (pool : Pool) (index : UInt16) : Prop :=
  pool.get? index = some (.utf8 kind.name)

/-- The bytes stand for an attribute that is not a body. -/
inductive Attribute.WrittenNested (pool : Pool) : Attribute → Bytes → Prop where
  | sourceFile {index nameIndex : UInt16} (named : Kind.sourceFile.NamedAt pool index) :
      WrittenNested pool (.sourceFile nameIndex) (header index 2 ++ Bytes.ofUInt16 nameIndex)
  | lineNumberTable {index : UInt16} {length : UInt32} {table : Bytes}
      (named : Kind.lineNumberTable.NamedAt pool index)
      (complete : table.length = length.toNat) :
      WrittenNested pool (.lineNumberTable length) (header index length ++ table)
  | localVariableTable {index : UInt16} {length : UInt32} {table : Bytes}
      (named : Kind.localVariableTable.NamedAt pool index)
      (complete : table.length = length.toNat) :
      WrittenNested pool (.localVariableTable length) (header index length ++ table)

/-- The bytes of a handler. -/
def Handler.written (handler : Handler) : Bytes :=
  Bytes.ofUInt16 handler.startPc ++ Bytes.ofUInt16 handler.endPc ++
    Bytes.ofUInt16 handler.handlerPc ++ Bytes.ofUInt16 handler.catchType

/-- The bytes of a body in front of its attributes. -/
def Code.front (code : Code) : Bytes :=
  Bytes.ofUInt16 code.maxStack ++ Bytes.ofUInt16 code.maxLocals ++
    Bytes.ofUInt32 (.ofNat code.bytecode.length) ++ code.bytecode ++
    Bytes.ofUInt16 (.ofNat code.handlers.length) ++ code.handlers.flatMap Handler.written

/-- The bytes stand for a body.  None of its attributes is a body, and everything in it can be
counted in the numbers that announce it. -/
structure Code.Written (pool : Pool) (code : Code) (bytes : Bytes) : Prop where
  bytecode_short : code.bytecode.length < 4294967296
  handlers_short : code.handlers.length < 65536
  attributes_short : code.attributes.length < 65536
  spelled : ∃ inner, Written.Sequence (Attribute.WrittenNested pool) code.attributes inner ∧
    bytes = code.front ++ Bytes.ofUInt16 (.ofNat code.attributes.length) ++ inner

/-- The bytes stand for an attribute of a class or of a method. -/
inductive Attribute.Written (pool : Pool) : Attribute → Bytes → Prop where
  | code {index : UInt16} {length : UInt32} {body : Code} {bytes : Bytes}
      (named : Kind.code.NamedAt pool index) (content : Code.Written pool body bytes) :
      Written pool (.code body) (header index length ++ bytes)
  | other {item : Attribute} {bytes : Bytes} (content : WrittenNested pool item bytes) :
      Written pool item bytes

end ClassAudit
