import ClassAudit.Proofs.Attribute.Grammar
import ClassAudit.Proofs.Reader.Report

/-!
# What is reported of attributes and methods

The trace of an attribute stands between two events: the header comes first, with the index and the
length that were read, and the attribute comes last.  Between them is what is reported of the
attributes inside it, which is nothing unless the attribute is a body.  The trace of a method is an
event of its own and then the traces of its attributes.

The index and the length are in the bytes and not in the value, so traces belong to written forms:
`TracedNested`, `Code.Traced`, `Traced` and `Method.Traced` are the forms of the grammar, each with
the events of just these bytes.  Every form of the grammar has a trace (`exists_traced`), and a
reader that accepts the form reports it (`traces_readAll`, `Method.runs_read`).
-/

namespace ClassAudit

/-! ## Forms with their events -/

namespace Attribute

/-- The events of an attribute, given those of what is inside it. -/
def trace (index : UInt16) (length : UInt32) (inside : List Event) (item : Attribute) :
    List Event :=
  .attributeStart item.kind.name index length :: (inside ++ [.attributeEnd item])

/-- The bytes stand for an attribute that is not a body, and the events are its trace. -/
def TracedNested (pool : Pool) (item : Attribute) (bytes : Bytes) (log : List Event) : Prop :=
  WrittenNested pool item bytes ∧
    ∃ index length content, bytes = header index length ++ content ∧
      log = trace index length [] item

end Attribute

/-- The bytes stand for a body, and the events are the traces of its attributes. -/
def Code.Traced (pool : Pool) (code : Code) (bytes : Bytes) (log : List Event) : Prop :=
  Code.Written pool code bytes ∧
    ∃ inner, Written.TracedSequence (Attribute.TracedNested pool) code.attributes inner log ∧
      bytes = code.front ++ Bytes.ofUInt16 (.ofNat code.attributes.length) ++ inner

/-- The bytes stand for an attribute of a class or of a method, and the events are its trace. -/
inductive Attribute.Traced (pool : Pool) : Attribute → Bytes → List Event → Prop where
  | code {index : UInt16} {length : UInt32} {body : Code} {bytes : Bytes} {inside : List Event}
      (named : Kind.code.NamedAt pool index) (content : Code.Traced pool body bytes inside) :
      Traced pool (.code body) (header index length ++ bytes)
        (trace index length inside (.code body))
  | other {item : Attribute} {bytes : Bytes} {log : List Event}
      (content : TracedNested pool item bytes log) : Traced pool item bytes log

/-- The bytes stand for a method, and the events are its own, with the count that was read, and then
the traces of its attributes. -/
def Method.Traced (pool : Pool) (method : Method) (bytes : Bytes) (log : List Event) : Prop :=
  method.attributes.length < 65536 ∧ ∃ inner inside,
    Written.TracedSequence (Attribute.Traced pool) method.attributes inner inside ∧
    bytes = Bytes.ofUInt16 method.access.bits ++ Bytes.ofUInt16 method.nameIndex ++
      Bytes.ofUInt16 method.descriptorIndex ++
      Bytes.ofUInt16 (.ofNat method.attributes.length) ++ inner ∧
    log = .methodStart method.access method.nameIndex method.descriptorIndex
      (.ofNat method.attributes.length) :: inside

/-! ## Every written form has a trace -/

theorem Attribute.WrittenNested.exists_traced {pool : Pool} (item : Attribute) (bytes : Bytes)
    (hwritten : WrittenNested pool item bytes) : ∃ log, TracedNested pool item bytes log := by
  cases hwritten with
  | sourceFile hnamed => exact ⟨_, .sourceFile hnamed, _, _, _, rfl, rfl⟩
  | lineNumberTable hnamed hlength => exact ⟨_, .lineNumberTable hnamed hlength, _, _, _, rfl, rfl⟩
  | localVariableTable hnamed hlength =>
    exact ⟨_, .localVariableTable hnamed hlength, _, _, _, rfl, rfl⟩

theorem Code.Written.exists_traced {pool : Pool} {code : Code} {bytes : Bytes}
    (hwritten : Code.Written pool code bytes) : ∃ log, Code.Traced pool code bytes log := by
  obtain ⟨inner, hinner, hbytes⟩ := hwritten.spelled
  obtain ⟨log, htraced⟩ := hinner.exists_traced Attribute.WrittenNested.exists_traced
  exact ⟨log, hwritten, inner, htraced, hbytes⟩

theorem Attribute.Written.exists_traced {pool : Pool} (item : Attribute) (bytes : Bytes)
    (hwritten : Attribute.Written pool item bytes) : ∃ log, Traced pool item bytes log := by
  cases hwritten with
  | code hnamed hcontent =>
    obtain ⟨inside, htraced⟩ := hcontent.exists_traced
    exact ⟨_, .code hnamed htraced⟩
  | other hnested =>
    obtain ⟨log, htraced⟩ := hnested.exists_traced
    exact ⟨log, .other htraced⟩

theorem Method.Written.exists_traced {pool : Pool} (method : Method) (bytes : Bytes)
    (hwritten : Method.Written pool method bytes) : ∃ log, Method.Traced pool method bytes log := by
  obtain ⟨inner, hinner, hbytes⟩ := hwritten.spelled
  obtain ⟨inside, htraced⟩ := hinner.exists_traced Attribute.Written.exists_traced
  exact ⟨_, hwritten.attributes_short, inner, inside, htraced, hbytes, rfl⟩

/-! ## The trace is what is reported -/

namespace Attribute

variable {pool : Pool}

/-- Around the events of its content, an attribute reports its header and itself. -/
theorem readWith_apply {body : Reader Code} {index : UInt16} {length : UInt32} {item : Attribute}
    {content rest : Bytes} {inside : List Event} (hnamed : item.kind.NamedAt pool index)
    (hcontent : readContent body length item.kind (content ++ rest) = ⟨.ok item, rest, inside⟩) :
    readWith body pool (header index length ++ content ++ rest) =
      ⟨.ok item, rest, trace index length inside item⟩ := by
  have hname : pool.text index = .ok item.kind.name := Pool.text_eq_ok_iff.mpr hnamed
  have hkind : Kind.ofName? item.kind.name = some item.kind := Kind.ofName?_eq_some_iff.mpr rfl
  have hfound : (Reader.ofExcept (pool.text index)).Gives (content ++ rest) item.kind.name
      (content ++ rest) := Reader.gives_ofExcept_iff.mpr ⟨hname, rfl⟩
  have hcontentEnd : (do
      let found ← readContent body length item.kind
      Reader.report (.attributeEnd found)
      return found : Reader Attribute) (content ++ rest) =
        ⟨.ok item, rest, inside ++ [.attributeEnd item]⟩ := by
    rw [Reader.bind_apply_of_ok hcontent]
    rfl
  rw [readWith, header, List.append_assoc, List.append_assoc, Reader.uint16_bind_append,
    Reader.uint32_bind_append, (Reader.silent_ofExcept _).bind_apply hfound, Reader.report_bind]
  simp only [hkind, hcontentEnd, trace]

/-- The six bytes of a header tell the index and the length. -/
theorem header_append_inj {index second : UInt16} {length size : UInt32} {content behind : Bytes}
    (hsame : header index length ++ content = header second size ++ behind) :
    index = second ∧ length = size ∧ content = behind := by
  simp only [header, List.append_assoc] at hsame
  have hindex := congrArg Reader.uint16 hsame
  simp only [Reader.uint16_append, Outcome.mk.injEq, Except.ok.injEq, and_true] at hindex
  obtain ⟨rfl, hlater⟩ := hindex
  have hlength := congrArg Reader.uint32 hlater
  simp only [Reader.uint32_append, Outcome.mk.injEq, Except.ok.injEq, and_true] at hlength
  exact ⟨rfl, hlength⟩

theorem readContent_apply_sourceFile (body : Reader Code) (nameIndex : UInt16) (rest : Bytes) :
    readContent body 2 .sourceFile (Bytes.ofUInt16 nameIndex ++ rest) =
      ⟨.ok (.sourceFile nameIndex), rest, []⟩ := by
  simp only [readContent, if_true]
  rw [Reader.uint16_bind_append]
  rfl

/-- An attribute that is not a body is followed by whatever reads bodies. -/
theorem readWith_apply_of_tracedNested (body : Reader Code) {item : Attribute} {front : Bytes}
    {log : List Event} (htraced : TracedNested pool item front log) (rest : Bytes) :
    readWith body pool (front ++ rest) = ⟨.ok item, rest, log⟩ := by
  obtain ⟨hwritten, index, length, content, hbytes, rfl⟩ := htraced
  cases hwritten with
  | sourceFile hnamed =>
    obtain ⟨rfl, rfl, rfl⟩ := header_append_inj hbytes
    exact readWith_apply hnamed (readContent_apply_sourceFile body _ rest)
  | lineNumberTable hnamed hlength =>
    obtain ⟨rfl, rfl, rfl⟩ := header_append_inj hbytes
    refine readWith_apply hnamed ?_
    simp only [readContent, kind]
    rw [Reader.take_bind_append .variable hlength]
    rfl
  | localVariableTable hnamed hlength =>
    obtain ⟨rfl, rfl, rfl⟩ := header_append_inj hbytes
    refine readWith_apply hnamed ?_
    simp only [readContent, kind]
    rw [Reader.take_bind_append .variable hlength]
    rfl

theorem runs_readNested : (readNested pool).Runs (TracedNested pool) := by
  intro item front log htraced rest
  exact readWith_apply_of_tracedNested _ htraced rest

end Attribute

theorem Code.runs_read (pool : Pool) : (Code.read pool).Runs (Code.Traced pool) := by
  rintro code _ log ⟨hwritten, inner, hinner, rfl⟩ rest
  obtain ⟨maxStack, maxLocals, bytecode, handlers, attributes⟩ := code
  have hcode : (UInt32.ofNat bytecode.length).toNat = bytecode.length :=
    UInt32.toNat_ofNat_of_lt' hwritten.bytecode_short
  have hhandlers : (UInt16.ofNat handlers.length).toNat = handlers.length :=
    UInt16.toNat_ofNat_of_lt' hwritten.handlers_short
  have hattributes : (UInt16.ofNat attributes.length).toNat = attributes.length :=
    UInt16.toNat_ofNat_of_lt' hwritten.attributes_short
  have hgives (later : Bytes) :
      (Reader.repeated handlers.length Handler.read).Gives
        (handlers.flatMap Handler.written ++ later) handlers later :=
    (Handler.reads_read.repeated _ _ _ _).mpr
      ⟨_, rfl, rfl, Written.Sequence.eq_flatMap_iff.mpr rfl⟩
  -- only the attributes are reported
  simp only [Code.read, Code.front, List.append_assoc, Reader.uint16_bind_append,
    Reader.uint32_bind_append, Reader.take_bind_append .variable hcode.symm, hhandlers,
    (Reader.silent_handler.repeated _).bind_apply (hgives _), hattributes]
  rw [Reader.bind_apply_of_ok (Attribute.runs_readNested.repeated hinner rest)]
  simp [Reader.pure_eq, Reader.pure]

namespace Attribute

theorem runs_read (pool : Pool) : (Attribute.read pool).Runs (Traced pool) := by
  intro item front log htraced rest
  cases htraced with
  | @code index length body bytes inside hnamed hcontent =>
    have hbody : Code.read pool (bytes ++ rest) = ⟨.ok body, rest, inside⟩ :=
      Code.runs_read pool body bytes inside hcontent rest
    refine readWith_apply hnamed ?_
    simp only [readContent, kind]
    rw [Reader.bind_apply_of_ok hbody]
    simp [Reader.pure_eq, Reader.pure]
  | other hnested => exact readWith_apply_of_tracedNested _ hnested rest

/-- A counted sequence of attributes is given with the traces of its members. -/
theorem traces_readAll (count : UInt16) (pool : Pool) :
    (Attribute.readAll count pool).Traces fun items bytes log =>
      items.length = count.toNat ∧ Written.TracedSequence (Traced pool) items bytes log := by
  refine Reader.Traces.of_runs (reads_readAll count pool) ?_ ?_
  · rintro items front ⟨hcount, hwritten⟩
    obtain ⟨log, htraced⟩ := hwritten.exists_traced Written.exists_traced
    exact ⟨log, hcount, htraced⟩
  · rintro items front log ⟨hcount, htraced⟩ rest
    rw [Attribute.readAll, ← hcount]
    exact (runs_read pool).repeated htraced rest

end Attribute

theorem Method.runs_read (pool : Pool) : (Method.read pool).Runs (Method.Traced pool) := by
  rintro method _ _ ⟨hshort, inner, inside, hinner, rfl, rfl⟩ rest
  have hcount : (UInt16.ofNat method.attributes.length).toNat = method.attributes.length :=
    UInt16.toNat_ofNat_of_lt' hshort
  have hattributes : Attribute.readAll (.ofNat method.attributes.length) pool (inner ++ rest) =
      ⟨.ok method.attributes, rest, inside⟩ := by
    rw [Attribute.readAll, hcount]
    exact (Attribute.runs_read pool).repeated hinner rest
  simp only [Method.read, List.append_assoc, Reader.access_bind_append, Reader.uint16_bind_append]
  rw [Reader.report_bind, Reader.bind_apply_of_ok hattributes]
  simp [Reader.pure_eq, Reader.pure]

end ClassAudit
