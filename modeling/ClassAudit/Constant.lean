import ClassAudit.Text.Outline
import ClassAudit.Text.Unprinted

/-!
# Constants

The entries of a constant pool.  Four kinds are known: a text, a class, a reference to a method,
and a name with its type.  All but the first point at further entries by their index.
-/

namespace ClassAudit

/-- An entry of a constant pool. -/
inductive Constant where
  /-- A text. -/
  | utf8 (text : String)
  /-- A class, by the index of its name. -/
  | classEntry (nameIndex : UInt16)
  /-- A method, by its class and its name with its type. -/
  | methodRef (classIndex nameAndTypeIndex : UInt16)
  /-- The name of a member and its type. -/
  | nameAndType (nameIndex descriptorIndex : UInt16)
deriving DecidableEq

namespace Constant

/-- The kinds of constants. -/
inductive Kind where
  | utf8
  | classEntry
  | methodRef
  | nameAndType
deriving DecidableEq

namespace Kind

/-- The byte in front of a constant of this kind. -/
def tag : Kind → UInt8
  | utf8 => 1
  | classEntry => 7
  | methodRef => 10
  | nameAndType => 12

/-- The kind of the constant behind a byte. -/
def ofTag? (tag : UInt8) : Option Kind :=
  if tag = 1 then some utf8
  else if tag = 7 then some classEntry
  else if tag = 10 then some methodRef
  else if tag = 12 then some nameAndType
  else none

/-- The name of a kind. -/
def name : Kind → String
  | utf8 => "Utf8"
  | classEntry => "Class"
  | methodRef => "MethodRef"
  | nameAndType => "NameAndType"

theorem ofTag?_eq_some_iff {tag : UInt8} {kind : Kind} :
    ofTag? tag = some kind ↔ tag = kind.tag := by
  constructor
  · intro known
    unfold ofTag? at known
    split at known
    · simp_all [← Option.some.inj known, Kind.tag]
    · split at known
      · simp_all [← Option.some.inj known, Kind.tag]
      · split at known
        · simp_all [← Option.some.inj known, Kind.tag]
        · split at known
          · simp_all [← Option.some.inj known, Kind.tag]
          · cases known
  · rintro rfl
    cases kind <;> rfl

end Kind

/-- The kind of a constant. -/
def kind : Constant → Kind
  | utf8 _ => .utf8
  | classEntry _ => .classEntry
  | methodRef _ _ => .methodRef
  | nameAndType _ _ => .nameAndType

/-- The text of a constant that is one. -/
def text? : Constant → Option String
  | utf8 text => some text
  | _ => none

/-- The index of the name of a constant that is a class. -/
def classNameIndex? : Constant → Option UInt16
  | classEntry nameIndex => some nameIndex
  | _ => none

/-- A constant as it is shown. -/
def outline (constant : Constant) : Text.Outline :=
  .group constant.kind.name .round [content constant]
where
  /-- What stands between the brackets. -/
  content : Constant → Text.Outline
    | utf8 text => .quoted text
    | classEntry nameIndex => .fields "ClassInfo" [("name_index", .number nameIndex.toNat)]
    | methodRef classIndex nameAndTypeIndex =>
      .fields "RefInfo" [("class_index", .number classIndex.toNat),
        ("name_and_type_index", .number nameAndTypeIndex.toNat)]
    | nameAndType nameIndex descriptorIndex =>
      .fields "NameAndTypeInfo" [("name_index", .number nameIndex.toNat),
        ("descriptor_index", .number descriptorIndex.toNat)]

/-- A constant on one line. -/
def text (constant : Constant) : String :=
  constant.outline.inline Text.Unprinted.contains

end Constant

end ClassAudit
