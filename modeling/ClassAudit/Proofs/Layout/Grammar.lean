import ClassAudit.Layout.Reading
import ClassAudit.Proofs.Attribute.Grammar

/-!
# The grammar of a class

Reading a class by a layout accepts exactly the written forms of the classes that the layout
describes, and gives the class that was written (`Layout.gives_read_iff`).  The bytes that are the
same in every class are written out in the grammar; those that the reading compares with are the
same ones (`Opcode.eq_written`, `Layout.header_eq_opening`).

A layout is held against a file in three ways, and each has its own equivalence here: numbers and
flags are checked as they come (`gives_expect_iff`, `gives_expectAccess_iff`), the constructor is
checked behind its last byte (`ConstructorLayout.checks_pass_iff`), and so are the attributes of
the class (`Layout.attributeChecks_pass_iff`).
-/

namespace ClassAudit

/-! ## Checks that pass -/

theorem Check.firstFailure?_eq_none_iff {checks : List Check} :
    Check.firstFailure? checks = none ↔ ∀ check ∈ checks, check.expected = check.actual := by
  simp [Check.firstFailure?, Check.passes]

namespace Reader

@[simp] theorem gives_expect_iff {field : Field} {expected value : UInt16} {bytes rest : Bytes} :
    (expect field expected).Gives bytes value rest ↔
      value = expected ∧ bytes = Bytes.ofUInt16 expected ++ rest := by
  simp only [expect, gives_bind_iff, gives_uint16_iff, gives_check_iff, gives_pure_iff,
    Check.number, Value.number.injEq, UInt16.toNat_inj]
  refine ⟨fun hread => ?_, fun hsame => ?_⟩
  · obtain ⟨_, _, rfl, _, _, ⟨rfl, rfl⟩, rfl, rfl⟩ := hread
    exact ⟨rfl, rfl⟩
  · obtain ⟨rfl, rfl⟩ := hsame
    exact ⟨value, rest, rfl, (), rest, ⟨rfl, rfl⟩, rfl, rfl⟩

@[simp] theorem gives_expectAccess_iff {field : Field} {expected value : Access}
    {bytes rest : Bytes} :
    (expectAccess field expected).Gives bytes value rest ↔
      value = expected ∧ bytes = Bytes.ofUInt16 expected.bits ++ rest := by
  simp only [expectAccess, gives_bind_iff, gives_access_iff, gives_check_iff, gives_pure_iff,
    Value.access.injEq]
  refine ⟨fun hread => ?_, fun hsame => ?_⟩
  · obtain ⟨_, _, rfl, _, _, ⟨rfl, rfl⟩, rfl, rfl⟩ := hread
    exact ⟨rfl, rfl⟩
  · obtain ⟨rfl, rfl⟩ := hsame
    exact ⟨value, rest, rfl, (), rest, ⟨rfl, rfl⟩, rfl, rfl⟩

variable {α : Type}

theorem gives_expect_bind_iff {field : Field} {expected : UInt16} {next : UInt16 → Reader α}
    {bytes rest : Bytes} {value : α} :
    (expect field expected >>= next).Gives bytes value rest ↔
      ∃ middle, bytes = Bytes.ofUInt16 expected ++ middle ∧
        (next expected).Gives middle value rest := by
  simp [gives_bind_iff, and_assoc]

theorem gives_expectAccess_bind_iff {field : Field} {expected : Access} {next : Access → Reader α}
    {bytes rest : Bytes} {value : α} :
    (expectAccess field expected >>= next).Gives bytes value rest ↔
      ∃ middle, bytes = Bytes.ofUInt16 expected.bits ++ middle ∧
        (next expected).Gives middle value rest := by
  simp [gives_bind_iff, and_assoc]

theorem gives_expectHeader_iff {expected bytes rest : Bytes} {value : Unit}
    (height : expected.length = 8) :
    (expectHeader expected).Gives bytes value rest ↔ bytes = expected ++ rest := by
  simp only [expectHeader, header, gives_bind_iff, gives_take_iff]
  refine ⟨fun hread => ?_, fun hbytes => ?_⟩
  · obtain ⟨actual, middle, ⟨_, rfl⟩, hcompared⟩ := hread
    by_cases hsame : actual = expected
    · rw [if_pos hsame] at hcompared
      obtain ⟨-, rfl⟩ := gives_pure_iff.mp hcompared
      rw [hsame]
    · rw [if_neg hsame] at hcompared
      exact absurd hcompared not_gives_fail
  · refine ⟨expected, rest, ⟨height, hbytes⟩, ?_⟩
    rw [if_pos rfl]
    exact gives_pure_iff.mpr ⟨rfl, rfl⟩

end Reader

/-! ## The constructor -/

/-- The opcodes that are compared with are the ones that the grammar has. -/
theorem Opcode.eq_written : loadThis = 0x2A ∧ callConstructor = 0xB7 ∧ returnVoid = 0xB1 :=
  ⟨rfl, rfl, rfl⟩

namespace ConstructorLayout

variable {layout : ConstructorLayout}

theorem codeChecks_pass_iff {code : Code} :
    (∀ check ∈ layout.codeChecks code, check.expected = check.actual) ↔
      layout.Describes code := by
  obtain ⟨maxStack, maxLocals, bytecode, handlers, attributes⟩ := code
  obtain ⟨hload, hcall, hreturn⟩ := Opcode.eq_written
  simp only [codeChecks, Check.number, List.forall_mem_cons, List.not_mem_nil, false_imp_iff,
    implies_true, and_true, Value.number.injEq, UInt16.toNat_inj]
  refine ⟨fun hpass => ?_, fun hdescribes => ?_⟩
  · obtain ⟨hstack, hlocals, hlength, hhandlers, hattributes, hopcodes⟩ := hpass
    -- the opcodes are looked up one by one, so the five bytes have to be there first
    match bytecode, hlength with
    | [first, second, upper, lower, last], _ =>
      simp only [List.getElem?_cons_zero, List.getElem?_cons_succ, Value.ofOpcode?,
        Value.ofOperand?, Value.opcode.injEq, Value.number.injEq] at hopcodes
      obtain ⟨hfirst, hsecond, hcalled, hlast⟩ := hopcodes
      have hoperand : [upper, lower] = Bytes.ofUInt16 layout.superConstructorIndex := by
        have htwo : [upper, lower].length = 2 := rfl
        rw [← Bytes.ofUInt16_value htwo, ← hcalled, UInt16.ofNat_toNat]
      have hnone : handlers = [] := List.length_eq_zero_iff.mp hhandlers.symm
      refine ⟨hstack.symm, hlocals.symm, ?_, hnone, hattributes.symm⟩
      rw [← hoperand, ← hfirst, ← hsecond, ← hlast, hload, hcall, hreturn]
      rfl
  · obtain ⟨rfl, rfl, hbytecode, rfl, hattributes⟩ := hdescribes
    dsimp only at hbytecode hattributes
    subst hbytecode
    rw [hload, hcall, hreturn]
    refine ⟨rfl, rfl, rfl, rfl, hattributes.symm, rfl, rfl, ?_, rfl⟩
    exact congrArg Value.number (Bytes.value_ofUInt16 layout.superConstructorIndex).symm

/-- A method passes its checks if it is the constructor of the layout, with a body that the layout
describes. -/
theorem checks_pass_iff {method : Method} :
    Check.firstFailure? (layout.checks method) = none ↔
      ∃ code, method = layout.method code ∧ layout.Describes code := by
  rw [Check.firstFailure?_eq_none_iff]
  obtain ⟨access, nameIndex, descriptorIndex, attributes⟩ := method
  simp only [checks, List.forall_mem_append, Check.number, Check.firstAttribute,
    List.forall_mem_cons, List.not_mem_nil, false_imp_iff, implies_true, and_true,
    Value.access.injEq, Value.number.injEq, UInt16.toNat_inj]
  refine ⟨fun hpass => ?_, fun hconstructor => ?_⟩
  · obtain ⟨⟨rfl, rfl, rfl, hone, hkind⟩, hbody⟩ := hpass
    obtain ⟨item, rfl⟩ := List.length_eq_one_iff.mp hone.symm
    cases item with
    | code code => exact ⟨code, rfl, codeChecks_pass_iff.mp hbody⟩
    | sourceFile nameIndex => simp [Value.ofAttribute?, Attribute.kind] at hkind
    | lineNumberTable length => simp [Value.ofAttribute?, Attribute.kind] at hkind
    | localVariableTable length => simp [Value.ofAttribute?, Attribute.kind] at hkind
  · obtain ⟨code, hmethod, hdescribes⟩ := hconstructor
    cases hmethod
    exact ⟨⟨rfl, rfl, rfl, rfl, rfl⟩, codeChecks_pass_iff.mpr hdescribes⟩

end ConstructorLayout

/-! ## The class -/

namespace Layout

variable {layout : Layout}

@[simp] theorem length_header : layout.header.length = 8 := rfl

/-- The header that is compared with is the one that the grammar has. -/
theorem header_eq_opening (layout : Layout) : layout.header = layout.opening := rfl

theorem gives_expectHeader_iff_opening {bytes rest : Bytes} {value : Unit} :
    (Reader.expectHeader layout.header).Gives bytes value rest ↔
      bytes = layout.opening ++ rest := by
  rw [Reader.gives_expectHeader_iff length_header, header_eq_opening]

/-- A single attribute passes the checks if it names the source file of the layout. -/
theorem attributeChecks_pass_iff {attributes : List Attribute} (hone : attributes.length = 1) :
    Check.firstFailure? (layout.attributeChecks attributes) = none ↔
      attributes = [.sourceFile layout.sourceFileIndex] := by
  rw [Check.firstFailure?_eq_none_iff]
  obtain ⟨item, rfl⟩ := List.length_eq_one_iff.mp hone
  cases item with
  | sourceFile nameIndex =>
    simp [attributeChecks, Check.firstAttribute, Check.number, Value.ofAttribute?, Attribute.kind,
      UInt16.toNat_inj, eq_comm]
  | code code => simp [attributeChecks, Check.firstAttribute, Value.ofAttribute?, Attribute.kind]
  | lineNumberTable length =>
    simp [attributeChecks, Check.firstAttribute, Value.ofAttribute?, Attribute.kind]
  | localVariableTable length =>
    simp [attributeChecks, Check.firstAttribute, Value.ofAttribute?, Attribute.kind]

/-- Reading a class by a layout succeeds exactly in front of the written forms of a class of the
layout. -/
theorem gives_read_iff {bytes rest : Bytes} {compiled : CompiledClass} :
    layout.read.Gives bytes compiled rest ↔
      ∃ pool code front, bytes = front ++ rest ∧ layout.Written pool code front ∧
        compiled = layout.compiled pool code := by
  simp only [Layout.read, ↓Reader.gives_expect_bind_iff, ↓Reader.gives_expectAccess_bind_iff,
    Reader.gives_bind_iff, gives_expectHeader_iff_opening, Pool.reads_read _ _ _ _,
    Method.reads_read _ _ _ _, Attribute.reads_readAll _ _ _ _ _, Reader.gives_checkAll_iff,
    Reader.gives_pure_iff, ConstructorLayout.checks_pass_iff]
  refine ⟨fun hread => ?_, fun hclass => ?_⟩
  · -- the header and the constants
    obtain ⟨_, _, rfl, _, rfl, pool, _, ⟨constants, rfl, hcounted, hconstants⟩, hread⟩ := hread
    -- the six numbers in front of the constructor
    obtain ⟨_, rfl, _, rfl, _, rfl, _, rfl, _, rfl, _, rfl, hread⟩ := hread
    obtain ⟨_, _, ⟨constructor, rfl, hconstructor⟩, _, _, ⟨⟨code, rfl, hdescribed⟩, rfl⟩, hread⟩ :=
      hread
    obtain ⟨_, rfl, attributes, _, ⟨inner, rfl, hone, hinner⟩, _, _, ⟨hpass, rfl⟩, rfl, rfl⟩ :=
      hread
    obtain rfl := (attributeChecks_pass_iff hone).mp hpass
    have hsourceFile := Written.Sequence.singleton_iff.mp hinner
    refine ⟨pool, code, _, ?_, ⟨hcounted, hdescribed, constants, constructor, inner,
      hconstants, hconstructor, hsourceFile, rfl⟩, rfl⟩
    simp [middle]
  · obtain ⟨pool, code, _, rfl, hwritten, rfl⟩ := hclass
    obtain ⟨constants, constructor, sourceFile, hconstants, hconstructor, hsourceFile, rfl⟩ :=
      hwritten.spelled
    have hinner : Written.Sequence (Attribute.Written pool)
        [.sourceFile layout.sourceFileIndex] sourceFile := Written.Sequence.singleton_iff.mpr hsourceFile
    refine ⟨(), _, ?_, _, rfl, pool, _, ⟨constants, rfl, hwritten.counted, hconstants⟩, _, rfl,
      _, rfl, _, rfl, _, rfl, _, rfl, _, rfl, _, _, ⟨constructor, rfl, hconstructor⟩, (), _,
      ⟨⟨code, rfl, hwritten.described⟩, rfl⟩, _, rfl, _, rest,
      ⟨sourceFile, rfl, rfl, hinner⟩, (), rest,
      ⟨(attributeChecks_pass_iff rfl).mpr rfl, rfl⟩, rfl, rfl⟩
    simp [middle]

/-- **A layout accepts exactly its grammar.**  Reading some bytes gives a class and leaves others
if and only if what stands in front of these is a written form, with some constants and some body
of the constructor, of a class of the layout.  The class that is given is then the one of the
layout with just these constants and this body. -/
theorem accepts_exactly_written (layout : Layout) (bytes trailing : Bytes)
    (compiled : CompiledClass) :
    (layout.read bytes).result = .ok compiled ∧ (layout.read bytes).rest = trailing ↔
      ∃ pool code front, bytes = front ++ trailing ∧ layout.Written pool code front ∧
        compiled = layout.compiled pool code :=
  gives_read_iff

end Layout

end ClassAudit
