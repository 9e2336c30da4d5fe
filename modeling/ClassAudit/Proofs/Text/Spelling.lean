import ClassAudit.Event

/-!
# The texts of the log, written out

A constant and an attribute are shown through their outlines, and a set of access flags through the
table of its flags.  In this module their texts are written out instead, with every name, label and
bracket as it stands in the log, and for each of the three there is one equation between the two
(`Constant.inline_outline_eq`, `Attribute.text_eq_spelling`, `Access.text_eq_spelling`).

A body holds further attributes.  The text of an attribute is therefore written out for a given way
to show those inside it, and the equation has the same text on both sides.
-/

namespace ClassAudit

/-! ## Outlines -/

namespace Text

/-- Several texts in brackets. -/
def listed (texts : List String) : String :=
  "[" ++ ", ".intercalate texts ++ "]"

namespace Outline

theorem inline_number (hidden : Char → Bool) (value : Nat) :
    (number value).inline hidden = toString value := by
  rw [number, inline]

theorem inline_list (hidden : Char → Bool) (members : List Outline) :
    (list members).inline hidden = listed (members.map (inline hidden)) := by
  cases members with
  | nil => simp [list, inline, listed, Bracket.opening, Bracket.closing]
  | cons member others =>
    simp [list, inline, listed, Bracket.opening, Bracket.padding, Bracket.closing]

/-- A list of values is shown by the texts of its members. -/
theorem inline_list_map {α : Type} {hidden : Char → Bool} {shown : α → Outline} {text : α → String}
    (htext : ∀ member, (shown member).inline hidden = text member) (members : List α) :
    (list (members.map shown)).inline hidden = listed (members.map text) := by
  rw [inline_list, List.map_map]
  congr 1
  exact List.map_congr_left fun member _ => htext member

end Outline

end Text

open Text

/-! ## Constants -/

namespace Constant

/-- The text of a constant.  Which characters of a quoted text are written by their numbers is a
parameter. -/
def spelling (hidden : Char → Bool) : Constant → String
  | utf8 text => "Utf8(" ++ Quoted.quote hidden text ++ ")"
  | classEntry nameIndex =>
    "Class(ClassInfo \x7b name_index: " ++ toString nameIndex.toNat ++ " \x7d)"
  | methodRef classIndex nameAndTypeIndex =>
    "MethodRef(RefInfo \x7b class_index: " ++ toString classIndex.toNat ++
      ", name_and_type_index: " ++ toString nameAndTypeIndex.toNat ++ " \x7d)"
  | nameAndType nameIndex descriptorIndex =>
    "NameAndType(NameAndTypeInfo \x7b name_index: " ++ toString nameIndex.toNat ++
      ", descriptor_index: " ++ toString descriptorIndex.toNat ++ " \x7d)"

theorem inline_outline_eq (hidden : Char → Bool) (constant : Constant) :
    constant.outline.inline hidden = constant.spelling hidden := by
  unfold spelling
  -- pieces of text are joined as lists of characters, where simp can compare them
  apply String.toList_inj.mp
  cases constant <;>
    simp [outline, outline.content, kind, Kind.name, Outline.fields, Outline.inline,
      Outline.inline_number, Bracket.opening, Bracket.padding, Bracket.closing]

end Constant

/-! ## Attributes -/

/-- The text of a handler. -/
def Handler.spelling (handler : Handler) : String :=
  "ExceptionTableEntry \x7b start_pc: " ++ toString handler.startPc.toNat ++
    ", end_pc: " ++ toString handler.endPc.toNat ++
    ", handler_pc: " ++ toString handler.handlerPc.toNat ++
    ", catch_type: " ++ toString handler.catchType.toNat ++ " \x7d"

theorem Handler.inline_outline_eq (hidden : Char → Bool) (handler : Handler) :
    handler.outline.inline hidden = handler.spelling := by
  unfold spelling
  apply String.toList_inj.mp
  simp [outline, Outline.fields, Outline.inline, Outline.inline_number, Bracket.opening,
    Bracket.padding, Bracket.closing]

namespace Attribute

/-- The name by which an attribute is announced. -/
def label : Attribute → String
  | code _ => "Code"
  | sourceFile _ => "SourceFile"
  | lineNumberTable _ => "LineNumberTable"
  | localVariableTable _ => "LocalVariableTable"

theorem name_kind (item : Attribute) : item.kind.name = item.label := by
  cases item <;> rfl

/-- The text of an attribute, given how those inside it are shown. -/
def spelling (inside : Attribute → String) : Attribute → String
  | code body =>
    "Code(CodeAttribute \x7b max_stack: " ++ toString body.maxStack.toNat ++
      ", max_locals: " ++ toString body.maxLocals.toNat ++
      ", code: " ++ listed (body.bytecode.map fun byte => toString byte.toNat) ++
      ", exception_table: " ++ listed (body.handlers.map Handler.spelling) ++
      ", attributes: Attributes(" ++ listed (body.attributes.map inside) ++ ") \x7d)"
  | sourceFile nameIndex =>
    "SourceFile \x7b sourcefile_index: " ++ toString nameIndex.toNat ++ " \x7d"
  | lineNumberTable length =>
    "LineNumberTable \x7b length: " ++ toString length.toNat ++ " \x7d"
  | localVariableTable length =>
    "LocalVariableTable \x7b length: " ++ toString length.toNat ++ " \x7d"

/-- An attribute is shown by its text, and so are the attributes inside it. -/
theorem text_eq_spelling (item : Attribute) : item.text = item.spelling text := by
  unfold spelling
  apply String.toList_inj.mp
  cases item with
  | code body =>
    obtain ⟨maxStack, maxLocals, bytecode, handlers, attributes⟩ := body
    have hbytes := Outline.inline_list_map
      (fun byte : UInt8 => Outline.inline_number Unprinted.contains byte.toNat) bytecode
    have hhandlers := Outline.inline_list_map
      (Handler.inline_outline_eq Unprinted.contains) handlers
    have hattributes : (Outline.list (attributes.map outline)).inline Unprinted.contains =
        listed (attributes.map text) := Outline.inline_list_map (fun _ => rfl) attributes
    simp [text, outline, Code.outline, enclose, Outline.fields, Outline.inline,
      Outline.inline_number, Bracket.opening, Bracket.padding, Bracket.closing, hbytes, hhandlers,
      hattributes]
  | sourceFile _ | lineNumberTable _ | localVariableTable _ =>
    simp [text, outline, Outline.fields, Outline.inline, Outline.inline_number, Bracket.opening,
      Bracket.padding, Bracket.closing]

end Attribute

/-! ## Access flags -/

namespace Access

/-- The bits of a set of access flags, in order, with the names by which they are shown.  One of
them has two names. -/
def names : List (UInt16 × String) := [
  (0x0001, "PUBLIC"), (0x0002, "PRIVATE"), (0x0004, "PROTECTED"), (0x0008, "STATIC"),
  (0x0010, "FINAL"), (0x0020, "SUPER"), (0x0020, "SYNCHRONIZED"), (0x0040, "BRIDGE"),
  (0x0080, "VARARGS"), (0x0100, "NATIVE"), (0x0200, "INTERFACE"), (0x0400, "ABSTRACT"),
  (0x0800, "STRICT"), (0x1000, "SYNTHETIC"), (0x2000, "ANNOTATION"), (0x4000, "ENUM"),
  (0x8000, "MODULE")]

/-- The text of a set of access flags. -/
def spelling (access : Access) : String :=
  match names.filter fun (mask, _) => access.bits &&& mask = mask with
  | [] => "(empty)"
  | shown => " | ".intercalate (shown.map Prod.snd)

theorem text_eq_spelling (access : Access) : access.text = access.spelling := by
  have htable : names = Flag.all.map fun flag => (flag.mask, flag.name) := rfl
  have hshown : (names.filter fun (mask, _) => access.bits &&& mask = mask) =
      access.flags.map fun flag => (flag.mask, flag.name) := by
    rw [htable, List.filter_map]
    congr 2
    funext flag
    simp [contains, inter, ofFlag]
  rw [spelling, hshown, text]
  cases access.flags with
  | nil => rfl
  | cons flag others =>
    simp only [List.map_cons, List.map_map]
    rfl

end Access

end ClassAudit
