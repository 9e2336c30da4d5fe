import ClassAudit.Bytes
import ClassAudit.Text.Outline
import ClassAudit.Text.Unprinted

/-!
# Attributes

An attribute is a named piece of a class or of a method.  Four names are known.  The body of a
method is an attribute that holds further attributes; of the two debugging tables only the length
is kept.
-/

namespace ClassAudit

/-- A range of instructions with the instruction that takes over when one of them fails. -/
structure Handler where
  startPc : UInt16
  endPc : UInt16
  handlerPc : UInt16
  catchType : UInt16
deriving DecidableEq

mutual

/-- A named piece of a class or of a method. -/
inductive Attribute where
  /-- The body of a method. -/
  | code (body : Code)
  /-- The file that a class was compiled from, by the index of its name. -/
  | sourceFile (nameIndex : UInt16)
  /-- A table of line numbers, of which only the length is kept. -/
  | lineNumberTable (length : UInt32)
  /-- A table of local variables, of which only the length is kept. -/
  | localVariableTable (length : UInt32)

/-- The body of a method. -/
structure Code where
  maxStack : UInt16
  maxLocals : UInt16
  bytecode : Bytes
  handlers : List Handler
  attributes : List Attribute

end

namespace Attribute

/-- The kinds of attributes. -/
inductive Kind where
  | code
  | sourceFile
  | lineNumberTable
  | localVariableTable
deriving DecidableEq

namespace Kind

/-- The name of a kind, as it stands in the constant pool. -/
def name : Kind → String
  | code => "Code"
  | sourceFile => "SourceFile"
  | lineNumberTable => "LineNumberTable"
  | localVariableTable => "LocalVariableTable"

/-- The kind with a name. -/
def ofName? (name : String) : Option Kind :=
  if name = "Code" then some code
  else if name = "SourceFile" then some sourceFile
  else if name = "LineNumberTable" then some lineNumberTable
  else if name = "LocalVariableTable" then some localVariableTable
  else none

theorem ofName?_eq_some_iff {name : String} {kind : Kind} :
    ofName? name = some kind ↔ name = kind.name := by
  constructor
  · intro known
    unfold ofName? at known
    repeat' split at known
    all_goals simp_all
    all_goals subst known; rfl
  · rintro rfl
    cases kind <;> rfl

end Kind

/-- The kind of an attribute. -/
def kind : Attribute → Kind
  | code _ => .code
  | sourceFile _ => .sourceFile
  | lineNumberTable _ => .lineNumberTable
  | localVariableTable _ => .localVariableTable

/-- The body in an attribute that is one. -/
def code? : Attribute → Option Code
  | code body => some body
  | _ => none

/-- The index in an attribute that names a source file. -/
def sourceFile? : Attribute → Option UInt16
  | sourceFile nameIndex => some nameIndex
  | _ => none

/-- The first body in a list of attributes.  Attributes inside others are not searched. -/
def firstCode? (attributes : List Attribute) : Option Code :=
  attributes.findSome? code?

/-- The index in the first attribute of a list that names a source file.  Attributes inside others
are not searched. -/
def firstSourceFile? (attributes : List Attribute) : Option UInt16 :=
  attributes.findSome? sourceFile?

end Attribute

/-! ### Attributes as they are shown -/

/-- A handler as it is shown. -/
def Handler.outline (handler : Handler) : Text.Outline :=
  .fields "ExceptionTableEntry" [
    ("start_pc", .number handler.startPc.toNat),
    ("end_pc", .number handler.endPc.toNat),
    ("handler_pc", .number handler.handlerPc.toNat),
    ("catch_type", .number handler.catchType.toNat)]

/-- A list of attributes as it is shown, given how each of them is. -/
def Attribute.enclose (outlines : List Text.Outline) : Text.Outline :=
  .group "Attributes" .round [.list outlines]

mutual

/-- An attribute as it is shown. -/
def Attribute.outline : Attribute → Text.Outline
  | .code body => .group "Code" .round [body.outline]
  | .sourceFile nameIndex => .fields "SourceFile" [("sourcefile_index", .number nameIndex.toNat)]
  | .lineNumberTable length => .fields "LineNumberTable" [("length", .number length.toNat)]
  | .localVariableTable length => .fields "LocalVariableTable" [("length", .number length.toNat)]

/-- A body as it is shown. -/
def Code.outline : Code → Text.Outline
  | ⟨maxStack, maxLocals, bytecode, handlers, attributes⟩ =>
    .fields "CodeAttribute" [
      ("max_stack", .number maxStack.toNat),
      ("max_locals", .number maxLocals.toNat),
      ("code", .list (bytecode.map fun byte => .number byte.toNat)),
      ("exception_table", .list (handlers.map Handler.outline)),
      ("attributes", Attribute.enclose (attributes.map fun item => item.outline))]

end

namespace Attribute

/-- A list of attributes as it is shown. -/
def outlineAll (attributes : List Attribute) : Text.Outline :=
  enclose (attributes.map outline)

/-- An attribute on one line. -/
def text (item : Attribute) : String :=
  item.outline.inline Text.Unprinted.contains

end Attribute

end ClassAudit
