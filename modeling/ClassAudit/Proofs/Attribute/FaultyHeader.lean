import ClassAudit.Proofs.Attribute.Grammar
import ClassAudit.Proofs.Reader.Stopping

/-!
# Where the reading of attributes stops

A sequence of attributes is either read to its end, or cut off by the end of the bytes, or it stops
at a header, the index of a name and a length, that no attribute can have where it stands.  The
header alone tells the fault (`FaultyHeader`), and the bytes behind it are not looked at.

A header can stand in two places (`Reached`), behind any number of whole attributes in either case:

* outside a body, where the next attribute of the sequence is to begin;
* inside a body that has been begun (`Code.Begun`), behind fewer of its attributes than it
  announces.

Only a body may not stand inside a body, all other faults are the same in both places.

## Strategy

The two places are those in which `Attribute.readWith` is used, so one attribute is treated with the
reader of a body as a parameter: it stops at its own header, or where its body stops
(`stops_readWith_iff`).  With a body that always fails this gives `stops_readNested_iff`, then
`Code.stops_read_iff` by the counted sequence in a body, and then `stops_readAll_iff`.
-/

namespace ClassAudit

namespace Attribute

/-- A header with this index and this length, inside a body or not, is faulty. -/
inductive FaultyHeader (pool : Pool) (inside : Bool) (index : UInt16) (length : UInt32) :
    Fault → Prop where
  /-- The index of the name leads nowhere. -/
  | missing (hmissing : pool.get? index = none) :
      FaultyHeader pool inside index length (.invalidIndex index)
  /-- The index of the name leads to something that is not a text. -/
  | notText {found : Constant} (hfound : pool.get? index = some found)
      (hkind : found.kind ≠ .utf8) :
      FaultyHeader pool inside index length (.unexpectedConstant .utf8 index found)
  /-- A body begins inside a body. -/
  | nestedCode (hinside : inside = true) (hnamed : Kind.code.NamedAt pool index) :
      FaultyHeader pool inside index length .nestedCode
  /-- The name of a source file does not take two bytes. -/
  | sourceFileLength (hnamed : Kind.sourceFile.NamedAt pool index) (hlength : length ≠ 2) :
      FaultyHeader pool inside index length (.sourceFileLength length)
  /-- The name is not one of the four. -/
  | unknown {name : String} (hfound : pool.get? index = some (.utf8 name))
      (hunknown : ∀ kind, name ≠ Kind.name kind) :
      FaultyHeader pool inside index length (.unknownAttribute name)

end Attribute

/-- The bytes begin a body and go on to some attribute inside it: those of the body come before,
and it has announced more. -/
structure Code.Begun (pool : Pool) (code : Code) (bytes : Bytes) : Prop where
  bytecode_short : code.bytecode.length < 4294967296
  handlers_short : code.handlers.length < 65536
  spelled : ∃ (announced : UInt16) (inner : Bytes), code.attributes.length < announced.toNat ∧
    Written.Sequence (Attribute.WrittenNested pool) code.attributes inner ∧
    bytes = code.front ++ Bytes.ofUInt16 announced ++ inner

/-- The bytes go from the front of a sequence of attributes to the place of a further header, which
is inside a body or not. -/
inductive Attribute.Reached (pool : Pool) (count : Nat) : Bool → Bytes → Prop where
  | outside {items : List Attribute} {front : Bytes} (hfewer : items.length < count)
      (hfront : Written.Sequence (Attribute.Written pool) items front) :
      Reached pool count false front
  | inside {items : List Attribute} {front opened : Bytes} {index : UInt16} {length : UInt32}
      {body : Code} (hfewer : items.length < count)
      (hfront : Written.Sequence (Attribute.Written pool) items front)
      (hnamed : Kind.code.NamedAt pool index) (hbegun : Code.Begun pool body opened) :
      Reached pool count true (front ++ (header index length ++ opened))

variable {pool : Pool} {bytes rest : Bytes} {fault : Fault}

namespace Attribute

variable {inside : Bool} {index : UInt16} {length : UInt32} {body : Reader Code}

/-! ## Faults of a header -/

/-- Inside a body there is one fault more. -/
theorem faultyHeader_true_iff :
    FaultyHeader pool true index length fault ↔
      FaultyHeader pool false index length fault ∨
        Kind.code.NamedAt pool index ∧ fault = .nestedCode := by
  constructor
  · intro hfaulty
    cases hfaulty with
    | missing hmissing => exact .inl (.missing hmissing)
    | notText hfound hkind => exact .inl (.notText hfound hkind)
    | nestedCode _ hnamed => exact .inr ⟨hnamed, rfl⟩
    | sourceFileLength hnamed hlength => exact .inl (.sourceFileLength hnamed hlength)
    | unknown hfound hunknown => exact .inl (.unknown hfound hunknown)
  · rintro (hfaulty | ⟨hnamed, rfl⟩)
    · cases hfaulty with
      | missing hmissing => exact .missing hmissing
      | notText hfound hkind => exact .notText hfound hkind
      | nestedCode hinside _ => cases hinside
      | sourceFileLength hnamed hlength => exact .sourceFileLength hnamed hlength
      | unknown hfound hunknown => exact .unknown hfound hunknown
    · exact .nestedCode rfl hnamed

/-- The look-up of a name fails if the header has one of the first two faults. -/
theorem stops_text_iff :
    (Reader.ofExcept (pool.text index)).Stops bytes fault rest ↔
      bytes = rest ∧ ((pool.get? index = none ∧ fault = .invalidIndex index) ∨
        ∃ found, pool.get? index = some found ∧ found.kind ≠ .utf8 ∧
          fault = .unexpectedConstant .utf8 index found) := by
  simp only [← Constant.text?_eq_none_iff, ← Pool.lookup_eq_error_iff, Pool.text]
  cases hlookup : pool.lookup .utf8 Constant.text? index with
  | ok text => simp [Reader.ofExcept, ← Reader.pure_eq]
  | error found =>
    have hreason : ∀ extent, found ≠ .endOfInput extent := by
      rcases Pool.lookup_eq_error_iff.mp hlookup with ⟨-, rfl⟩ | ⟨_, -, -, rfl⟩ <;> simp
    rw [Reader.ofExcept, Reader.stops_fail_iff hreason, and_comm, Except.error.injEq]
    simp only [eq_comm]

/-- Of the contents only those of a source file and of a body can be wrong. -/
theorem stops_readContent_iff {kind : Kind} :
    (readContent body length kind).Stops bytes fault rest ↔
      (kind = .sourceFile ∧ length ≠ 2 ∧ fault = .sourceFileLength length ∧ bytes = rest) ∨
        kind = .code ∧ body.Stops bytes fault rest := by
  cases kind with
  | code => simp [readContent]
  | sourceFile =>
    by_cases htwo : length = 2
    · simp [readContent, htwo]
    · have hreason : ∀ extent, Fault.sourceFileLength length ≠ .endOfInput extent := by simp
      simp [readContent, htwo, Reader.stops_fail_iff hreason]
  | lineNumberTable => simp [readContent]
  | localVariableTable => simp [readContent]

/-! ## One attribute -/

/-- A name that is not one of the four belongs to no kind. -/
theorem Kind.ofName?_eq_none_iff {name : String} :
    Kind.ofName? name = none ↔ ∀ kind, name ≠ Kind.name kind := by
  constructor
  · intro hnone kind hname
    rw [Kind.ofName?_eq_some_iff.mpr hname] at hnone
    cases hnone
  · intro hunknown
    cases hknown : Kind.ofName? name with
    | none => rfl
    | some kind => exact absurd (Kind.ofName?_eq_some_iff.mp hknown) (hunknown kind)

/-- What comes behind a name stops if the name is unknown, or where the content does. -/
theorem stops_behind_name_iff {name : String} :
    (do
      Reader.report (.attributeStart name index length)
      match Kind.ofName? name with
      | none => Reader.fail (.unknownAttribute name)
      | some kind =>
        let found ← readContent body length kind
        Reader.report (.attributeEnd found)
        return found : Reader Attribute).Stops bytes fault rest ↔
      ((∀ kind, name ≠ Kind.name kind) ∧ fault = .unknownAttribute name ∧ bytes = rest) ∨
        (name = Kind.sourceFile.name ∧ length ≠ 2 ∧ fault = .sourceFileLength length ∧
          bytes = rest) ∨
        name = Kind.code.name ∧ body.Stops bytes fault rest := by
  rw [Reader.stops_report_bind_iff, ← Kind.ofName?_eq_none_iff, ← Kind.ofName?_eq_some_iff,
    ← Kind.ofName?_eq_some_iff]
  cases Kind.ofName? name with
  | none =>
    have hreason : ∀ extent, Fault.unknownAttribute name ≠ .endOfInput extent := by simp
    simp [Reader.stops_fail_iff hreason]
  | some kind =>
    simp only [Reader.stops_bind_report_iff, stops_readContent_iff, reduceCtorEq,
      Option.some.injEq, false_and, false_or]

/-- An attribute stops right behind its header, or where its body does. -/
theorem stops_readWith_iff :
    (readWith body pool).Stops bytes fault rest ↔
      ∃ index length middle, bytes = header index length ++ middle ∧
        ((FaultyHeader pool false index length fault ∧ middle = rest) ∨
          Kind.code.NamedAt pool index ∧ body.Stops middle fault rest) := by
  simp only [readWith, Reader.stops_uint16_bind_iff, Reader.stops_uint32_bind_iff]
  constructor
  · rintro ⟨index, _, rfl, length, middle, rfl, hstop⟩
    refine ⟨index, length, middle, by rw [header, List.append_assoc], ?_⟩
    rcases Reader.stops_bind_iff.mp hstop with htext | ⟨name, _, hname, hnamed⟩
    · obtain ⟨rfl, ⟨hmissing, rfl⟩ | ⟨found, hfound, hkind, rfl⟩⟩ := stops_text_iff.mp htext
      · exact .inl ⟨.missing hmissing, rfl⟩
      · exact .inl ⟨.notText hfound hkind, rfl⟩
    · obtain ⟨htext, rfl⟩ := Reader.gives_ofExcept_iff.mp hname
      have hfound : pool.get? index = some (.utf8 name) := Pool.text_eq_ok_iff.mp htext
      obtain ⟨hunknown, rfl, rfl⟩ | ⟨rfl, hlength, rfl, rfl⟩ | ⟨rfl, hbody⟩ :=
        stops_behind_name_iff.mp hnamed
      · exact .inl ⟨.unknown hfound hunknown, rfl⟩
      · exact .inl ⟨.sourceFileLength hfound hlength, rfl⟩
      · exact .inr ⟨hfound, hbody⟩
  · rintro ⟨index, length, middle, rfl, hstop⟩
    refine ⟨index, _, by rw [header, List.append_assoc], length, middle, rfl, ?_⟩
    rw [Reader.stops_bind_iff, stops_text_iff]
    have hgives {name : String} (hfound : pool.get? index = some (.utf8 name)) :
        (Reader.ofExcept (pool.text index)).Gives middle name middle :=
      Reader.gives_ofExcept_iff.mpr ⟨Pool.text_eq_ok_iff.mpr hfound, rfl⟩
    rcases hstop with ⟨hfaulty, rfl⟩ | ⟨hnamed, hbody⟩
    · cases hfaulty with
      | missing hmissing => exact .inl ⟨rfl, .inl ⟨hmissing, rfl⟩⟩
      | notText hfound hkind => exact .inl ⟨rfl, .inr ⟨_, hfound, hkind, rfl⟩⟩
      | nestedCode hinside _ => cases hinside
      | sourceFileLength hnamed hlength =>
        refine .inr ⟨_, middle, hgives hnamed, ?_⟩
        exact stops_behind_name_iff.mpr (.inr (.inl ⟨rfl, hlength, rfl, rfl⟩))
      | unknown hfound hunknown =>
        refine .inr ⟨_, middle, hgives hfound, ?_⟩
        exact stops_behind_name_iff.mpr (.inl ⟨hunknown, rfl, rfl⟩)
    · refine .inr ⟨_, middle, hgives hnamed, ?_⟩
      exact stops_behind_name_iff.mpr (.inr (.inr ⟨rfl, hbody⟩))

/-- An attribute of a body stops right behind its header. -/
theorem stops_readNested_iff :
    (readNested pool).Stops bytes fault rest ↔
      ∃ index length, bytes = header index length ++ rest ∧
        FaultyHeader pool true index length fault := by
  have hreason : ∀ extent, Fault.nestedCode ≠ .endOfInput extent := by simp
  simp only [readNested, stops_readWith_iff, Reader.stops_fail_iff hreason, faultyHeader_true_iff]
  constructor
  · rintro ⟨index, length, middle, rfl, ⟨hfaulty, rfl⟩ | ⟨hnamed, rfl, rfl⟩⟩
    · exact ⟨index, length, rfl, .inl hfaulty⟩
    · exact ⟨index, length, rfl, .inr ⟨hnamed, rfl⟩⟩
  · rintro ⟨index, length, rfl, hfaulty | ⟨hnamed, rfl⟩⟩
    · exact ⟨index, length, rest, rfl, .inl ⟨hfaulty, rfl⟩⟩
    · exact ⟨index, length, rest, rfl, .inr ⟨hnamed, rfl, rfl⟩⟩

end Attribute

/-! ## A body -/

theorem Handler.not_stops_read : ¬ Handler.read.Stops bytes fault rest := by
  simp [Handler.read, Reader.stops_uint16_bind_iff]

theorem Handler.stops_repeated_bind_iff {α : Type} {count : Nat} {next : List Handler → Reader α} :
    (Reader.repeated count Handler.read >>= next).Stops bytes fault rest ↔
      ∃ handlers middle, handlers.length = count ∧
        bytes = handlers.flatMap Handler.written ++ middle ∧
        (next handlers).Stops middle fault rest := by
  have hnever : ¬ (Reader.repeated count Handler.read).Stops bytes fault rest := by
    rw [Reader.stops_repeated_iff Handler.reads_read]
    rintro ⟨_, _, _, -, -, -, hstops⟩
    exact Handler.not_stops_read hstops
  simp only [Reader.stops_bind_iff, hnever, false_or, Handler.reads_read.repeated _ _ _ _,
    Written.Sequence.eq_flatMap_iff]
  constructor
  · rintro ⟨handlers, middle, ⟨_, rfl, hcount, rfl⟩, hnext⟩
    exact ⟨handlers, middle, hcount, rfl, hnext⟩
  · rintro ⟨handlers, middle, hcount, rfl, hnext⟩
    exact ⟨handlers, middle, ⟨_, rfl, hcount, rfl⟩, hnext⟩

/-- A body stops where one of its attributes does. -/
theorem Code.stops_read_iff :
    (Code.read pool).Stops bytes fault rest ↔
      ∃ code opened index length, Code.Begun pool code opened ∧
        bytes = opened ++ (Attribute.header index length ++ rest) ∧
        Attribute.FaultyHeader pool true index length fault := by
  simp only [Code.read, Reader.stops_uint16_bind_iff, Reader.stops_uint32_bind_iff,
    Reader.stops_take_bind_iff, Handler.stops_repeated_bind_iff, Reader.stops_bind_pure_iff,
    Reader.stops_repeated_iff (Attribute.reads_readNested pool), Attribute.stops_readNested_iff]
  constructor
  · rintro ⟨maxStack, _, rfl, maxLocals, _, rfl, codeLength, _, rfl, hstop⟩
    obtain ⟨bytecode, _, hbytecode, rfl, handlersCount, _, rfl, hstop⟩ := hstop
    obtain ⟨handlers, _, hhandlers, rfl, announced, _, rfl, hstop⟩ := hstop
    obtain ⟨attributes, inner, _, hfewer, hinner, rfl, index, length, rfl, hfaulty⟩ := hstop
    have hcode : bytecode.length < 4294967296 := hbytecode ▸ codeLength.toNat_lt
    have hfew : handlers.length < 65536 := hhandlers ▸ handlersCount.toNat_lt
    refine ⟨⟨maxStack, maxLocals, bytecode, handlers, attributes⟩, _, index, length,
      ⟨hcode, hfew, announced, inner, hfewer, hinner, rfl⟩, ?_, hfaulty⟩
    simp [Code.front, hbytecode, hhandlers]
  · rintro ⟨code, _, index, length, hbegun, rfl, hfaulty⟩
    obtain ⟨announced, inner, hfewer, hinner, rfl⟩ := hbegun.spelled
    have hcode : (UInt32.ofNat code.bytecode.length).toNat = code.bytecode.length :=
      UInt32.toNat_ofNat_of_lt' hbegun.bytecode_short
    have hhandlers : (UInt16.ofNat code.handlers.length).toNat = code.handlers.length :=
      UInt16.toNat_ofNat_of_lt' hbegun.handlers_short
    refine ⟨code.maxStack, _, ?_, code.maxLocals, _, rfl, .ofNat code.bytecode.length, _, rfl,
      code.bytecode, _, hcode.symm, rfl, .ofNat code.handlers.length, _, rfl, code.handlers, _,
      hhandlers.symm, rfl, announced, _, rfl, code.attributes, inner, _, hfewer, hinner, rfl,
      index, length, rfl, hfaulty⟩
    simp only [Code.front, List.append_assoc]

/-! ## A sequence of attributes -/

namespace Attribute

/-- A sequence stops at a header that it has reached, outside a body or inside one. -/
theorem stops_readAll_iff {count : UInt16} :
    (Attribute.readAll count pool).Stops bytes fault rest ↔
      ∃ inside front index length, Reached pool count.toNat inside front ∧
        bytes = front ++ (header index length ++ rest) ∧
        FaultyHeader pool inside index length fault := by
  rw [Attribute.readAll, Reader.stops_repeated_iff (reads_read pool)]
  simp only [Attribute.read, stops_readWith_iff, Code.stops_read_iff]
  constructor
  · rintro ⟨items, front, _, hfewer, hfront, rfl, index, length, _, rfl, hstop⟩
    rcases hstop with ⟨hfaulty, rfl⟩ | ⟨hnamed, code, opened, inner, size, hbegun, rfl, hfaulty⟩
    · exact ⟨false, front, index, length, .outside hfewer hfront, rfl, hfaulty⟩
    · refine ⟨true, front ++ (header index length ++ opened), inner, size,
        .inside hfewer hfront hnamed hbegun, ?_, hfaulty⟩
      simp only [List.append_assoc]
  · rintro ⟨inside, _, index, length, hreached, rfl, hfaulty⟩
    cases hreached with
    | @outside items _ hfewer hfront =>
      exact ⟨items, _, _, hfewer, hfront, rfl, index, length, rest, rfl, .inl ⟨hfaulty, rfl⟩⟩
    | @inside items front opened outer size code hfewer hfront hnamed hbegun =>
      refine ⟨items, front, _, hfewer, hfront, ?_, outer, size, _, rfl,
        .inr ⟨hnamed, code, opened, index, length, hbegun, rfl, hfaulty⟩⟩
      simp only [List.append_assoc]

/-- **Attributes stop at the first faulty header.**  Reading a number of attributes fails for
another reason than the end of the bytes, and leaves some of them, if and only if a header stands
right in front of these whose place the attributes before it lead to, outside a body or inside one
that has been begun, and which has just this fault there.  What is left may be anything.  The index
of a name leads nowhere if it is zero or larger than the pool. -/
theorem fails_at_first_faulty_header (pool : Pool) (count : UInt16) (bytes rest : Bytes)
    (fault : Fault) :
    ((Attribute.readAll count pool bytes).result = .error fault ∧
        (Attribute.readAll count pool bytes).rest = rest ∧
        (∀ extent, fault ≠ .endOfInput extent) ↔
      ∃ inside front index length, Reached pool count.toNat inside front ∧
        bytes = front ++ (header index length ++ rest) ∧
        FaultyHeader pool inside index length fault) ∧
    ∀ index, pool.get? index = none ↔ index = 0 ∨ pool.size < index.toNat := by
  refine ⟨?_, fun index => Pool.get?_eq_none_iff⟩
  rw [← stops_readAll_iff, Reader.Stops, Reader.Fails, and_assoc]

end Attribute

end ClassAudit
