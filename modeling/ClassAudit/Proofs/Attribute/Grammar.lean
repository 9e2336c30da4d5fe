import ClassAudit.Method
import ClassAudit.Proofs.Pool.Grammar
import ClassAudit.Written.Class

/-!
# The grammar of attributes and methods

Reading an attribute, a number of attributes or a method accepts exactly the written forms, with
exact alignment: what is left behind a value is what stands behind one of its forms.

## Strategy

Attributes are read in two places that differ only in what they do about a body, so the grammar is
proved for `Attribute.readWith`, with the form of a body as a parameter (`WrittenWith`).  Inside a
body that form is empty, which gives `reads_readNested`; a body is a counted sequence of such
attributes, which gives `Code.reads_read`; and the form of a body is then what `reads_read` puts in
for the parameter.
-/

namespace ClassAudit

namespace Attribute

variable {pool : Pool} {body : Reader Code} {length : UInt32} {bytes rest : Bytes}
  {item : Attribute}

/-! ## What follows the name and the length -/

theorem gives_readContent_code_iff :
    (readContent body length .code).Gives bytes item rest ↔
      ∃ found, item = .code found ∧ body.Gives bytes found rest := by
  simp only [readContent, Reader.gives_bind_iff, Reader.gives_pure_iff]
  refine ⟨fun hread => ?_, fun hfound => ?_⟩
  · obtain ⟨found, _, hbody, rfl, rfl⟩ := hread
    exact ⟨found, rfl, hbody⟩
  · obtain ⟨found, rfl, hbody⟩ := hfound
    exact ⟨found, rest, hbody, rfl, rfl⟩

/-- The name of a source file is the only content whose length is checked. -/
theorem gives_readContent_sourceFile_iff :
    (readContent body length .sourceFile).Gives bytes item rest ↔
      length = 2 ∧ ∃ nameIndex, item = .sourceFile nameIndex ∧
        bytes = Bytes.ofUInt16 nameIndex ++ rest := by
  unfold readContent
  by_cases htwo : length = 2
  · rw [if_pos htwo, Reader.gives_of_uint16_iff]
    exact (and_iff_right htwo).symm
  · rw [if_neg htwo]
    exact ⟨fun hfail => absurd hfail Reader.not_gives_fail, fun hboth => absurd hboth.1 htwo⟩

/-! ## An attribute, given the form of a body -/

/-- An attribute starts with an index of the name of its kind and a length. -/
theorem gives_readWith_iff :
    (readWith body pool).Gives bytes item rest ↔
      ∃ index length kind middle, Kind.NamedAt kind pool index ∧
        bytes = header index length ++ middle ∧
        (readContent body length kind).Gives middle item rest := by
  simp only [readWith, Reader.gives_bind_iff, Reader.gives_uint16_iff, Reader.gives_uint32_iff,
    Reader.gives_ofExcept_iff, Reader.gives_report_iff, Pool.text_eq_ok_iff]
  refine ⟨fun hread => ?_, fun hwritten => ?_⟩
  · obtain ⟨index, _, rfl, length, middle, rfl, name, _, ⟨hname, rfl⟩, _, _, rfl, hcontent⟩ := hread
    cases hkind : Kind.ofName? name with
    | none =>
      rw [hkind] at hcontent
      exact absurd hcontent Reader.not_gives_fail
    | some kind =>
      simp only [hkind, Reader.gives_bind_iff, Reader.gives_report_iff, Reader.gives_pure_iff]
        at hcontent
      obtain ⟨_, _, hfound, _, _, rfl, rfl, rfl⟩ := hcontent
      have hnamed : kind.NamedAt pool index := by
        rw [Kind.NamedAt, hname, Kind.ofName?_eq_some_iff.mp hkind]
      exact ⟨index, length, kind, middle, hnamed, by simp [header], hfound⟩
  · obtain ⟨index, length, kind, middle, hnamed, rfl, hfound⟩ := hwritten
    refine ⟨index, _, by rw [header, List.append_assoc], length, middle, rfl, kind.name, middle,
      ⟨hnamed, rfl⟩, (), middle, rfl, ?_⟩
    rw [Kind.ofName?_eq_some_iff.mpr rfl]
    -- the event behind the content takes no bytes
    simp only [Reader.gives_bind_iff, Reader.gives_report_iff, Reader.gives_pure_iff]
    exact ⟨item, rest, hfound, (), rest, rfl, rfl, rfl⟩

/-- The bytes stand for an attribute, where those of a body have a given form. -/
def WrittenWith (pool : Pool) (BodyForm : Code → Bytes → Prop) (item : Attribute)
    (bytes : Bytes) : Prop :=
  WrittenNested pool item bytes ∨
    ∃ index length found content, item = .code found ∧ Kind.code.NamedAt pool index ∧
      BodyForm found content ∧ bytes = header index length ++ content

theorem reads_readWith {BodyForm : Code → Bytes → Prop} (hbody : body.Reads BodyForm) :
    (readWith body pool).Reads (WrittenWith pool BodyForm) := by
  intro bytes item rest
  rw [gives_readWith_iff]
  refine ⟨fun hread => ?_, fun hwritten => ?_⟩
  · obtain ⟨index, length, kind, middle, hnamed, rfl, hcontent⟩ := hread
    cases kind with
    | code =>
      obtain ⟨found, rfl, hfound⟩ := gives_readContent_code_iff.mp hcontent
      obtain ⟨content, rfl, hform⟩ := (hbody _ _ _).mp hfound
      exact ⟨_, by simp, .inr ⟨index, length, found, content, rfl, hnamed, hform, rfl⟩⟩
    | sourceFile =>
      obtain ⟨rfl, nameIndex, rfl, rfl⟩ := gives_readContent_sourceFile_iff.mp hcontent
      exact ⟨_, by simp, .inl (.sourceFile hnamed)⟩
    | lineNumberTable =>
      obtain ⟨rfl, table, hlength, rfl⟩ := Reader.gives_of_take_iff.mp hcontent
      exact ⟨_, by simp, .inl (.lineNumberTable hnamed hlength)⟩
    | localVariableTable =>
      obtain ⟨rfl, table, hlength, rfl⟩ := Reader.gives_of_take_iff.mp hcontent
      exact ⟨_, by simp, .inl (.localVariableTable hnamed hlength)⟩
  · obtain ⟨front, rfl, hfront⟩ := hwritten
    rcases hfront with hnested | ⟨index, length, found, content, rfl, hnamed, hform, rfl⟩
    · cases hnested with
      | @sourceFile index nameIndex hnamed =>
        refine ⟨index, 2, .sourceFile, _, hnamed, by rw [List.append_assoc], ?_⟩
        exact gives_readContent_sourceFile_iff.mpr ⟨rfl, nameIndex, rfl, rfl⟩
      | @lineNumberTable index length table hnamed hlength =>
        refine ⟨index, length, .lineNumberTable, _, hnamed, by rw [List.append_assoc], ?_⟩
        exact Reader.gives_of_take_iff.mpr ⟨rfl, table, hlength, rfl⟩
      | @localVariableTable index length table hnamed hlength =>
        refine ⟨index, length, .localVariableTable, _, hnamed, by rw [List.append_assoc], ?_⟩
        exact Reader.gives_of_take_iff.mpr ⟨rfl, table, hlength, rfl⟩
    · have hfound : body.Gives (content ++ rest) found rest :=
        (hbody _ _ _).mpr ⟨content, rfl, hform⟩
      refine ⟨index, length, .code, _, hnamed, by rw [List.append_assoc], ?_⟩
      exact gives_readContent_code_iff.mpr ⟨found, rfl, hfound⟩

/-- No written form of an attribute of a body is a body. -/
theorem reads_readNested (pool : Pool) : (readNested pool).Reads (WrittenNested pool) := by
  have hnone : (Reader.fail .nestedCode : Reader Code).Reads fun _ _ => False := by
    simp [Reader.Reads]
  intro bytes item rest
  rw [readNested, reads_readWith hnone]
  simp [WrittenWith]

end Attribute

/-! ## Bodies -/

theorem Handler.reads_read : Handler.read.Reads fun handler bytes => bytes = handler.written := by
  intro bytes handler rest
  simp only [Handler.read, Reader.gives_bind_iff, Reader.gives_uint16_iff, Reader.gives_pure_iff]
  refine ⟨fun hread => ?_, fun hwritten => ?_⟩
  · obtain ⟨startPc, _, rfl, endPc, _, rfl, handlerPc, _, rfl, catchType, _, rfl, rfl, rfl⟩ := hread
    exact ⟨_, by simp [Handler.written], rfl⟩
  · obtain ⟨_, rfl, rfl⟩ := hwritten
    exact ⟨handler.startPc, _, by simp only [Handler.written, List.append_assoc], handler.endPc, _,
      rfl, handler.handlerPc, _, rfl, handler.catchType, rest, rfl, rfl, rfl⟩

/-- Reading a body accepts exactly its written forms: the length in front of it plays no part, the
numbers inside it say how much of everything there is. -/
theorem Code.reads_read (pool : Pool) : (Code.read pool).Reads (Code.Written pool) := by
  intro bytes code rest
  simp only [Code.read, Reader.gives_bind_iff, Reader.gives_uint16_iff, Reader.gives_uint32_iff,
    Reader.gives_take_iff, Reader.gives_pure_iff, Handler.reads_read.repeated _ _ _ _,
    (Attribute.reads_readNested pool).repeated _ _ _ _, Written.Sequence.eq_flatMap_iff]
  refine ⟨fun hread => ?_, fun hwritten => ?_⟩
  · obtain ⟨maxStack, _, rfl, maxLocals, _, rfl, hread⟩ := hread
    obtain ⟨codeLength, _, rfl, bytecode, _, ⟨hbytecode, rfl⟩, hread⟩ := hread
    obtain ⟨handlersCount, _, rfl, handlers, _, ⟨_, rfl, hhandlers, rfl⟩, hread⟩ := hread
    obtain ⟨attributesCount, _, rfl, attributes, _, ⟨inner, rfl, hattributes, hinner⟩, hread⟩ :=
      hread
    obtain ⟨rfl, rfl⟩ := hread
    -- everything was counted by a number, so it is as short as its number can say
    have hcode : bytecode.length < 4294967296 := hbytecode ▸ codeLength.toNat_lt
    have hfew : handlers.length < 65536 := hhandlers ▸ handlersCount.toNat_lt
    have hinside : attributes.length < 65536 := hattributes ▸ attributesCount.toNat_lt
    refine ⟨_, ?_, hcode, hfew, hinside, inner, hinner, rfl⟩
    simp [Code.front, hbytecode, hhandlers, hattributes]
  · obtain ⟨_, rfl, hwritten⟩ := hwritten
    obtain ⟨inner, hinner, rfl⟩ := hwritten.spelled
    have hcode : (UInt32.ofNat code.bytecode.length).toNat = code.bytecode.length :=
      UInt32.toNat_ofNat_of_lt' hwritten.bytecode_short
    have hhandlers : (UInt16.ofNat code.handlers.length).toNat = code.handlers.length :=
      UInt16.toNat_ofNat_of_lt' hwritten.handlers_short
    have hattributes : (UInt16.ofNat code.attributes.length).toNat = code.attributes.length :=
      UInt16.toNat_ofNat_of_lt' hwritten.attributes_short
    obtain ⟨maxStack, maxLocals, bytecode, handlers, attributes⟩ := code
    refine ⟨maxStack, _, ?_, maxLocals, _, rfl, .ofNat bytecode.length, _, rfl, bytecode, _,
      ⟨hcode.symm, rfl⟩, .ofNat handlers.length, _, rfl, handlers, _,
      ⟨_, rfl, hhandlers.symm, rfl⟩, .ofNat attributes.length, _, rfl, attributes, rest,
      ⟨inner, rfl, hattributes.symm, hinner⟩, rfl, rfl⟩
    simp only [Code.front, List.append_assoc]

/-! ## Attributes and methods -/

namespace Attribute

theorem writtenWith_code_iff {pool : Pool} {item : Attribute} {bytes : Bytes} :
    WrittenWith pool (Code.Written pool) item bytes ↔ Attribute.Written pool item bytes := by
  refine ⟨fun hparts => ?_, fun hwritten => ?_⟩
  · rcases hparts with hnested | ⟨index, length, found, content, rfl, hnamed, hform, rfl⟩
    · exact .other hnested
    · exact .code hnamed hform
  · cases hwritten with
    | @code index length found content hnamed hform =>
      exact .inr ⟨index, length, found, content, rfl, hnamed, hform, rfl⟩
    | other hnested => exact .inl hnested

theorem reads_read (pool : Pool) : (Attribute.read pool).Reads (Attribute.Written pool) := by
  intro bytes item rest
  rw [Attribute.read, reads_readWith (Code.reads_read pool)]
  simp only [writtenWith_code_iff]

theorem reads_readAll (count : UInt16) (pool : Pool) :
    (Attribute.readAll count pool).Reads fun items bytes =>
      items.length = count.toNat ∧ Written.Sequence (Attribute.Written pool) items bytes :=
  (reads_read pool).repeated count.toNat

end Attribute

theorem Method.reads_read (pool : Pool) : (Method.read pool).Reads (Method.Written pool) := by
  intro bytes method rest
  simp only [Method.read, Reader.gives_bind_iff, Reader.gives_uint16_iff, Reader.gives_access_iff,
    Reader.gives_report_iff, Reader.gives_pure_iff, Attribute.reads_readAll _ _ _ _ _]
  refine ⟨fun hread => ?_, fun hwritten => ?_⟩
  · obtain ⟨access, _, rfl, nameIndex, _, rfl, descriptorIndex, _, rfl, hread⟩ := hread
    obtain ⟨attributesCount, _, rfl, _, _, rfl, attributes, _,
      ⟨inner, rfl, hattributes, hinner⟩, hread⟩ := hread
    obtain ⟨rfl, rfl⟩ := hread
    have hshort : attributes.length < 65536 := hattributes ▸ attributesCount.toNat_lt
    refine ⟨_, ?_, hshort, inner, hinner, rfl⟩
    simp [hattributes]
  · obtain ⟨_, rfl, hwritten⟩ := hwritten
    obtain ⟨inner, hinner, rfl⟩ := hwritten.spelled
    have hattributes : (UInt16.ofNat method.attributes.length).toNat = method.attributes.length :=
      UInt16.toNat_ofNat_of_lt' hwritten.attributes_short
    refine ⟨method.access, _, ?_, method.nameIndex, _, rfl, method.descriptorIndex, _, rfl,
      .ofNat method.attributes.length, _, rfl, (), _, rfl, method.attributes, rest,
      ⟨inner, rfl, hattributes.symm, hinner⟩, rfl, rfl⟩
    simp only [List.append_assoc]

/-- **Attributes and methods are read exactly by their grammar.**  A counted sequence of attributes,
a single one and a method are each given, with nothing taken from the bytes behind them, if and
only if one of their written forms stands in front of these bytes. -/
theorem attributes_and_method_read_exactly_written (pool : Pool) (count : UInt16)
    (bytes rest : Bytes) :
    (∀ items,
      (Attribute.readAll count pool bytes).result = .ok items ∧
          (Attribute.readAll count pool bytes).rest = rest ↔
        ∃ front, bytes = front ++ rest ∧ items.length = count.toNat ∧
          Written.Sequence (Attribute.Written pool) items front) ∧
    (∀ item,
      (Attribute.read pool bytes).result = .ok item ∧ (Attribute.read pool bytes).rest = rest ↔
        ∃ front, bytes = front ++ rest ∧ Attribute.Written pool item front) ∧
    (∀ method,
      (Method.read pool bytes).result = .ok method ∧ (Method.read pool bytes).rest = rest ↔
        ∃ front, bytes = front ++ rest ∧ Method.Written pool method front) := by
  refine ⟨fun items => ?_, fun item => ?_, fun method => ?_⟩
  · exact Attribute.reads_readAll count pool bytes items rest
  · exact Attribute.reads_read pool bytes item rest
  · exact Method.reads_read pool bytes method rest

end ClassAudit
