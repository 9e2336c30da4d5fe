import ClassAudit.Proofs.Attribute.Grammar
import ClassAudit.Proofs.Reader.Truncation

/-!
# Where the bytes of attributes and methods can be cut

The fields of an attribute are the index of its name, its length, and those of its content.  Three
fields are of variable extent: the code of a body and the bodies of the two debugging tables.

`DividedNested`, `Code.Divided`, `Divided` and `Method.Divided` are the forms of the grammar, each
with the fields of just these bytes.  Every form of the grammar is made of fields
(`exists_divided`), and the readers take the fields (`takes_read`, `Method.takes_read`).
-/

namespace ClassAudit

open Reader

/-! ## Forms with their fields -/

/-- The fields in front of an attribute. -/
def Attribute.headerPieces (index : UInt16) (length : UInt32) : List Piece :=
  [.fixed (Bytes.ofUInt16 index), .fixed (Bytes.ofUInt32 length)]

/-- The fields stand for an attribute that is not a body. -/
inductive Attribute.DividedNested (pool : Pool) : Attribute → List Piece → Prop where
  | sourceFile {index nameIndex : UInt16} (named : Kind.sourceFile.NamedAt pool index) :
      DividedNested pool (.sourceFile nameIndex)
        (headerPieces index 2 ++ [.fixed (Bytes.ofUInt16 nameIndex)])
  | lineNumberTable {index : UInt16} {length : UInt32} {table : Bytes}
      (named : Kind.lineNumberTable.NamedAt pool index)
      (complete : table.length = length.toNat) :
      DividedNested pool (.lineNumberTable length)
        (headerPieces index length ++ [⟨.variable, table⟩])
  | localVariableTable {index : UInt16} {length : UInt32} {table : Bytes}
      (named : Kind.localVariableTable.NamedAt pool index)
      (complete : table.length = length.toNat) :
      DividedNested pool (.localVariableTable length)
        (headerPieces index length ++ [⟨.variable, table⟩])

/-- The fields of a handler. -/
def Handler.pieces (handler : Handler) : List Piece :=
  [.fixed (Bytes.ofUInt16 handler.startPc), .fixed (Bytes.ofUInt16 handler.endPc),
    .fixed (Bytes.ofUInt16 handler.handlerPc), .fixed (Bytes.ofUInt16 handler.catchType)]

/-- The fields of a body in front of its attributes. -/
def Code.frontPieces (code : Code) : List Piece :=
  [.fixed (Bytes.ofUInt16 code.maxStack), .fixed (Bytes.ofUInt16 code.maxLocals),
    .fixed (Bytes.ofUInt32 (.ofNat code.bytecode.length)), ⟨.variable, code.bytecode⟩,
    .fixed (Bytes.ofUInt16 (.ofNat code.handlers.length))] ++
    ((code.handlers.map Handler.pieces).flatten ++
      [.fixed (Bytes.ofUInt16 (.ofNat code.attributes.length))])

/-- The fields stand for a body. -/
structure Code.Divided (pool : Pool) (code : Code) (pieces : List Piece) : Prop where
  bytecode_short : code.bytecode.length < 4294967296
  handlers_short : code.handlers.length < 65536
  attributes_short : code.attributes.length < 65536
  spelled : ∃ inner, List.Forall₂ (Attribute.DividedNested pool) code.attributes inner ∧
    pieces = code.frontPieces ++ inner.flatten

/-- The fields stand for an attribute of a class or of a method. -/
inductive Attribute.Divided (pool : Pool) : Attribute → List Piece → Prop where
  | code {index : UInt16} {length : UInt32} {body : Code} {pieces : List Piece}
      (named : Kind.code.NamedAt pool index) (content : Code.Divided pool body pieces) :
      Divided pool (.code body) (headerPieces index length ++ pieces)
  | other {item : Attribute} {pieces : List Piece} (content : DividedNested pool item pieces) :
      Divided pool item pieces

/-- The fields stand for a method. -/
structure Method.Divided (pool : Pool) (method : Method) (pieces : List Piece) : Prop where
  attributes_short : method.attributes.length < 65536
  spelled : ∃ inner, List.Forall₂ (Attribute.Divided pool) method.attributes inner ∧
    pieces = [.fixed (Bytes.ofUInt16 method.access.bits), .fixed (Bytes.ofUInt16 method.nameIndex),
      .fixed (Bytes.ofUInt16 method.descriptorIndex),
      .fixed (Bytes.ofUInt16 (.ofNat method.attributes.length))] ++ inner.flatten

/-! ## Every written form is made of fields -/

variable {pool : Pool}

@[simp] theorem Attribute.joined_headerPieces (index : UInt16) (length : UInt32) :
    Piece.joined (headerPieces index length) = header index length := by
  simp [headerPieces, header, Piece.fixed]

theorem Attribute.WrittenNested.exists_divided (item : Attribute) (bytes : Bytes)
    (hwritten : WrittenNested pool item bytes) :
    ∃ pieces, DividedNested pool item pieces ∧ Piece.joined pieces = bytes := by
  cases hwritten with
  | sourceFile hnamed => exact ⟨_, .sourceFile hnamed, by simp [Piece.fixed]⟩
  | lineNumberTable hnamed hcomplete => exact ⟨_, .lineNumberTable hnamed hcomplete, by simp⟩
  | localVariableTable hnamed hcomplete => exact ⟨_, .localVariableTable hnamed hcomplete, by simp⟩

theorem Handler.joined_pieces (handlers : List Handler) :
    Piece.joined (handlers.map Handler.pieces).flatten = handlers.flatMap Handler.written := by
  induction handlers with
  | nil => rfl
  | cons handler handlers ih =>
    rw [List.map_cons, List.flatten_cons, Piece.joined_append, ih, List.flatMap_cons]
    simp [Handler.pieces, Handler.written, Piece.fixed]

theorem Code.Written.exists_divided {code : Code} {bytes : Bytes}
    (hwritten : Code.Written pool code bytes) :
    ∃ pieces, Code.Divided pool code pieces ∧ Piece.joined pieces = bytes := by
  obtain ⟨hbytecode, hhandlers, hattributes, _, hinner, rfl⟩ := hwritten
  obtain ⟨inner, hdivided, rfl⟩ :=
    hinner.exists_divisions Attribute.WrittenNested.exists_divided
  refine ⟨_, ⟨hbytecode, hhandlers, hattributes, inner, hdivided, rfl⟩, ?_⟩
  simp [Code.frontPieces, Code.front, Handler.joined_pieces, Piece.fixed]

theorem Attribute.Written.exists_divided (item : Attribute) (bytes : Bytes)
    (hwritten : Attribute.Written pool item bytes) :
    ∃ pieces, Divided pool item pieces ∧ Piece.joined pieces = bytes := by
  cases hwritten with
  | @code index length body _ hnamed hcontent =>
    obtain ⟨pieces, hdivided, rfl⟩ := hcontent.exists_divided
    refine ⟨headerPieces index length ++ pieces, .code hnamed hdivided, ?_⟩
    rw [Piece.joined_append, joined_headerPieces]
  | other hnested =>
    obtain ⟨pieces, hdivided, rfl⟩ := hnested.exists_divided
    exact ⟨pieces, .other hdivided, rfl⟩

theorem Method.Written.exists_divided {method : Method} {bytes : Bytes}
    (hwritten : Method.Written pool method bytes) :
    ∃ pieces, Method.Divided pool method pieces ∧ Piece.joined pieces = bytes := by
  obtain ⟨hshort, _, hinner, rfl⟩ := hwritten
  obtain ⟨inner, hdivided, rfl⟩ := hinner.exists_divisions Attribute.Written.exists_divided
  refine ⟨_, ⟨hshort, inner, hdivided, rfl⟩, ?_⟩
  simp [Piece.fixed]

/-! ## The fields are taken -/

/-- The header and the content of an attribute, one behind the other. -/
theorem Attribute.takes_readWith {body : Reader Code} {index : UInt16} {length : UInt32}
    {item : Attribute} {pieces : List Piece} (hnamed : item.kind.NamedAt pool index)
    (hcontent : (readContent body length item.kind).Takes pieces item) :
    (readWith body pool).Takes (headerPieces index length ++ pieces) item := by
  have hname : (ofExcept (pool.text index)).Takes [] item.kind.name :=
    takes_nothing fun _ => gives_ofExcept_iff.mpr ⟨Pool.text_eq_ok_iff.mpr hnamed, rfl⟩
  unfold readWith
  apply (takes_uint16 index).bind
  apply (takes_uint32 length).bind
  apply hname.bind
  apply (takes_report _).bind
  rw [Kind.ofName?_eq_some_iff.mpr rfl]
  apply hcontent.bind_nothing
  exact (takes_report _).bind (takes_pure item)

/-- An attribute that is not a body is followed by whatever reads bodies. -/
theorem Attribute.takes_of_dividedNested (body : Reader Code) (item : Attribute)
    (pieces : List Piece) (hdivided : DividedNested pool item pieces) :
    (readWith body pool).Takes pieces item := by
  cases hdivided with
  | sourceFile hnamed =>
    refine takes_readWith hnamed ?_
    exact (takes_uint16 _).bind_nothing (takes_pure _)
  | lineNumberTable hnamed hcomplete =>
    refine takes_readWith hnamed ?_
    exact (takes_take .variable hcomplete).bind_nothing (takes_pure _)
  | localVariableTable hnamed hcomplete =>
    refine takes_readWith hnamed ?_
    exact (takes_take .variable hcomplete).bind_nothing (takes_pure _)

theorem Handler.takes_read (handler : Handler) : Handler.read.Takes handler.pieces handler := by
  unfold Handler.read
  apply (takes_uint16 handler.startPc).bind
  apply (takes_uint16 handler.endPc).bind
  apply (takes_uint16 handler.handlerPc).bind
  exact (takes_uint16 handler.catchType).bind_nothing (takes_pure handler)

theorem Handler.takes_repeated (handlers : List Handler) :
    (repeated handlers.length Handler.read).Takes (handlers.map pieces).flatten handlers := by
  have htaken (handler : Handler) (pieces : List Piece) (hpieces : pieces = handler.pieces) :
      Handler.read.Takes pieces handler := by
    rw [hpieces]
    exact handler.takes_read
  apply Takes.repeated htaken
  rw [List.forall₂_map_right_iff, List.forall₂_same]
  intro handler _
  rfl

/-- A body takes its fields. -/
theorem Code.takes_read {code : Code} {pieces : List Piece}
    (hdivided : Code.Divided pool code pieces) : (Code.read pool).Takes pieces code := by
  obtain ⟨maxStack, maxLocals, bytecode, handlers, attributes⟩ := code
  obtain ⟨hbytecode, hhandlers, hattributes, inner, hinner, rfl⟩ := hdivided
  have hcode : bytecode.length = (UInt32.ofNat bytecode.length).toNat :=
    (UInt32.toNat_ofNat_of_lt' hbytecode).symm
  have htable : (UInt16.ofNat handlers.length).toNat = handlers.length :=
    UInt16.toNat_ofNat_of_lt' hhandlers
  have hcount : (UInt16.ofNat attributes.length).toNat = attributes.length :=
    UInt16.toNat_ofNat_of_lt' hattributes
  have hitems := Takes.repeated (Attribute.takes_of_dividedNested (Reader.fail .nestedCode)) hinner
  rw [Code.frontPieces, List.append_assoc, List.append_assoc]
  unfold Code.read
  apply (takes_uint16 maxStack).bind
  apply (takes_uint16 maxLocals).bind
  apply (takes_uint32 _).bind
  apply (takes_take .variable hcode).bind
  apply (takes_uint16 _).bind
  rw [htable]
  apply (Handler.takes_repeated handlers).bind
  apply (takes_uint16 _).bind
  rw [hcount]
  exact hitems.bind_nothing (takes_pure _)

/-- An attribute takes its fields. -/
theorem Attribute.takes_read (item : Attribute) (pieces : List Piece)
    (hdivided : Attribute.Divided pool item pieces) : (Attribute.read pool).Takes pieces item := by
  cases hdivided with
  | code hnamed hcontent =>
    refine takes_readWith hnamed ?_
    exact (Code.takes_read hcontent).bind_nothing (takes_pure _)
  | other hnested => exact takes_of_dividedNested _ item pieces hnested

/-- A method takes its fields. -/
theorem Method.takes_read {method : Method} {pieces : List Piece}
    (hdivided : Method.Divided pool method pieces) : (Method.read pool).Takes pieces method := by
  obtain ⟨hshort, inner, hinner, rfl⟩ := hdivided
  have hcount : (UInt16.ofNat method.attributes.length).toNat = method.attributes.length :=
    UInt16.toNat_ofNat_of_lt' hshort
  have hattributes := Takes.repeated Attribute.takes_read hinner
  rw [← hcount] at hattributes
  unfold Method.read
  apply (takes_access method.access).bind
  apply (takes_uint16 method.nameIndex).bind
  apply (takes_uint16 method.descriptorIndex).bind
  apply (takes_uint16 _).bind
  apply (takes_report _).bind
  exact hattributes.bind_nothing (takes_pure method)

end ClassAudit
