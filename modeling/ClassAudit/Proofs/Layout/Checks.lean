import ClassAudit.Proofs.Layout.FirstFault

/-!
# What a layout asks for

Every check of a layout holds the value that the layout fixes for a field against a value of the
same kind: a number against a number, a set of access flags against another one, an opcode against
an opcode, and the kind of an attribute against that of another attribute.  The value may be missing
from the file, and then there is nothing to hold it against.

`Layout.Asks` says this of one check, and `asks_constructor_checks` and `asks_attributeChecks` of
all checks in the two lists that a layout makes.
-/

namespace ClassAudit

namespace Value

/-- The kinds of values. -/
inductive Kind where
  | number
  | access
  | opcode
  | attributeKind
deriving DecidableEq

/-- The kind of a value that is there. -/
def kind? : Value → Option Kind
  | number _ => some .number
  | access _ => some .access
  | opcode _ => some .opcode
  | attributeKind _ => some .attributeKind
  | nothing => none

theorem kind?_ofOpcode? (found : Option Opcode) :
    (ofOpcode? found).kind? = some .opcode ∨ ofOpcode? found = .nothing := by
  cases found with
  | none => exact .inr rfl
  | some byte => exact .inl rfl

theorem kind?_ofOperand? (upper lower : Option UInt8) :
    (ofOperand? upper lower).kind? = some .number ∨ ofOperand? upper lower = .nothing := by
  cases upper with
  | none => exact .inr rfl
  | some upper =>
    cases lower with
    | none => exact .inr rfl
    | some lower => exact .inl rfl

theorem kind?_ofAttribute? (found : Option Attribute) :
    (ofAttribute? found).kind? = some .attributeKind ∨ ofAttribute? found = .nothing := by
  cases found with
  | none => exact .inr rfl
  | some item => exact .inl rfl

end Value

/-- The kind of the values of a field. -/
def Field.kind : Field → Value.Kind
  | .accessFlags | .methodAccessFlags => .access
  | .firstOpcode | .secondOpcode | .lastOpcode => .opcode
  | .methodAttribute | .classAttribute => .attributeKind
  | _ => .number

theorem Layout.kind?_expected (layout : Layout) (field : Field) :
    (layout.expected field).kind? = some field.kind := by
  cases field <;> rfl

namespace Layout

/-- A check holds the value that the layout fixes for a field against a value of the same kind, if
there is one. -/
def Asks (layout : Layout) (made : Check) : Prop :=
  made.expected = layout.expected made.field ∧
    (made.actual.kind? = some made.field.kind ∨ made.actual = .nothing)

/-! ## The lists of checks -/

theorem asks_codeChecks (layout : Layout) (code : Code) :
    ∀ made ∈ layout.constructor.codeChecks code, layout.Asks made := by
  simp only [ConstructorLayout.codeChecks, List.forall_mem_cons]
  exact ⟨⟨rfl, .inl rfl⟩, ⟨rfl, .inl rfl⟩, ⟨rfl, .inl rfl⟩, ⟨rfl, .inl rfl⟩, ⟨rfl, .inl rfl⟩,
    ⟨rfl, Value.kind?_ofOpcode? _⟩, ⟨rfl, Value.kind?_ofOpcode? _⟩,
    ⟨rfl, Value.kind?_ofOperand? _ _⟩, ⟨rfl, Value.kind?_ofOpcode? _⟩, List.forall_mem_nil _⟩

theorem asks_constructor_checks (layout : Layout) (method : Method) :
    ∀ made ∈ layout.constructor.checks method, layout.Asks made := by
  simp only [ConstructorLayout.checks, List.forall_mem_append, List.forall_mem_cons]
  refine ⟨⟨⟨rfl, .inl rfl⟩, ⟨rfl, .inl rfl⟩, ⟨rfl, .inl rfl⟩, ⟨rfl, .inl rfl⟩,
    ⟨rfl, Value.kind?_ofAttribute? _⟩, List.forall_mem_nil _⟩, ?_⟩
  split
  · exact layout.asks_codeChecks _
  · exact List.forall_mem_nil _

theorem asks_attributeChecks (layout : Layout) (attributes : List Attribute) :
    ∀ made ∈ layout.attributeChecks attributes, layout.Asks made := by
  simp only [attributeChecks, List.forall_mem_append, List.forall_mem_cons]
  refine ⟨⟨⟨rfl, Value.kind?_ofAttribute? _⟩, List.forall_mem_nil _⟩, ?_⟩
  split
  · exact List.forall_mem_singleton.mpr ⟨rfl, .inl rfl⟩
  · exact List.forall_mem_nil _

end Layout

end ClassAudit
