import ClassAudit.Proofs.Layout.Grammar
import ClassAudit.Proofs.Reader.Failure

/-!
# Which layouts can be met

A layout can be met if and only if it announces at least two constants (`can_be_met_iff`).  All its
other numbers are free.

* Two are needed: a class has a body and the name of a source file, the names of these two kinds of
  attributes are looked up in the pool, and they differ (`two_le_size`).
* Two are enough: wherever a pool holds the two names, a class of the layout is written with that
  pool (`written_plainBytes`).  Its body has as many attributes as the layout asks for; they need
  no further name, because the name of the source file may stand inside a body as well.
-/

namespace ClassAudit

/-! ## Two names are needed -/

/-- The name of a written attribute is in the pool. -/
theorem Attribute.Written.named {pool : Pool} {item : Attribute} {bytes : Bytes}
    (hwritten : Attribute.Written pool item bytes) : ∃ index, item.kind.NamedAt pool index := by
  cases hwritten with
  | code hnamed _ => exact ⟨_, hnamed⟩
  | other hnested =>
    cases hnested with
    | sourceFile hnamed => exact ⟨_, hnamed⟩
    | lineNumberTable hnamed _ => exact ⟨_, hnamed⟩
    | localVariableTable hnamed _ => exact ⟨_, hnamed⟩

theorem Attribute.Kind.name_injective {kind other : Attribute.Kind}
    (hname : kind.name = other.name) : kind = other := by
  have hkind : Kind.ofName? kind.name = some kind := Kind.ofName?_eq_some_iff.mpr rfl
  have hother : Kind.ofName? kind.name = some other := Kind.ofName?_eq_some_iff.mpr hname
  rw [hkind] at hother
  exact Option.some.inj hother

theorem Attribute.Kind.NamedAt.index_le {kind : Attribute.Kind} {pool : Pool} {index : UInt16}
    (hnamed : kind.NamedAt pool index) : 0 < index.toNat ∧ index.toNat ≤ pool.size := by
  have hthere : ¬ (index = 0 ∨ pool.size < index.toNat) := by
    intro hmissing
    have hnone : pool.get? index = none := Pool.get?_eq_none_iff.mpr hmissing
    rw [NamedAt, hnone] at hnamed
    cases hnamed
  have hpositive : index.toNat ≠ 0 := by
    intro hzero
    exact hthere (.inl (UInt16.toNat_inj.mp hzero))
  omega

/-- Two names take two entries. -/
theorem Attribute.Kind.NamedAt.two_le_size {kind other : Attribute.Kind} {pool : Pool}
    {index second : UInt16} (hdiffer : kind ≠ other) (hnamed : kind.NamedAt pool index)
    (hother : other.NamedAt pool second) : 2 ≤ pool.size := by
  have hindices : index ≠ second := by
    rintro rfl
    rw [NamedAt, hnamed] at hother
    injection hother with hsame
    injection hsame with hname
    exact hdiffer (name_injective hname)
  have hnumbers : index.toNat ≠ second.toNat := by
    intro hsame
    exact hindices (UInt16.toNat_inj.mp hsame)
  have hfirst := hnamed.index_le
  have hsecond := hother.index_le
  omega

theorem Layout.Written.three_le_count {layout : Layout} {pool : Pool} {code : Code}
    {bytes : Bytes} (hwritten : layout.Written pool code bytes) :
    3 ≤ layout.constantPoolCount.toNat := by
  obtain ⟨_, _, _, -, hconstructor, hsourceFile, -⟩ := hwritten.spelled
  obtain ⟨_, hbody, -⟩ := hconstructor.spelled
  obtain ⟨_, hcode⟩ := (Written.Sequence.singleton_iff.mp hbody).named
  obtain ⟨_, hsource⟩ := hsourceFile.named
  have hdiffer : Attribute.Kind.code ≠ .sourceFile := by decide
  have htwo : 2 ≤ pool.size := Attribute.Kind.NamedAt.two_le_size hdiffer hcode hsource
  have hcounted := hwritten.counted
  omega

/-! ## Two names are enough -/

/-- The name of a kind of attributes as an entry of a pool. -/
def Attribute.Kind.nameBytes (kind : Attribute.Kind) : Bytes :=
  let payload := Text.Payload.standard kind.name
  Constant.Kind.utf8.tag :: (Bytes.ofUInt16 (.ofNat payload.length) ++ payload)

theorem Attribute.Kind.written_nameBytes (kind : Attribute.Kind) :
    Constant.Written (.utf8 kind.name) kind.nameBytes := by
  have hshort : (Text.Payload.standard kind.name).length < 65536 := by
    cases kind <;> decide
  have hreadable : Text.Payload.decode? (Text.Payload.standard kind.name) = some kind.name := by
    simp [Text.Payload.decode?]
  exact .utf8 hshort hreadable

/-- A body that a layout describes.  All its attributes are names of a source file. -/
def ConstructorLayout.plainBody (layout : ConstructorLayout) : Code where
  maxStack := layout.maxStack
  maxLocals := layout.maxLocals
  bytecode := [0x2A, 0xB7] ++ Bytes.ofUInt16 layout.superConstructorIndex ++ [0xB1]
  handlers := []
  attributes := List.replicate layout.codeAttributesCount.toNat (.sourceFile 0)

namespace ConstructorLayout

theorem describes_plainBody (layout : ConstructorLayout) : layout.Describes layout.plainBody where
  maxStack := rfl
  maxLocals := rfl
  bytecode := rfl
  handlers := rfl
  attributes := List.length_replicate

/-- The bytes of that body, given the index of the name of its attributes. -/
def plainBodyBytes (layout : ConstructorLayout) (sourceIndex : UInt16) : Bytes :=
  layout.plainBody.front ++ Bytes.ofUInt16 layout.codeAttributesCount ++
    (List.replicate layout.codeAttributesCount.toNat
      (Attribute.header sourceIndex 2 ++ Bytes.ofUInt16 0)).flatten

theorem written_plainBodyBytes (layout : ConstructorLayout) {pool : Pool} {sourceIndex : UInt16}
    (hsource : Attribute.Kind.sourceFile.NamedAt pool sourceIndex) :
    Code.Written pool layout.plainBody (layout.plainBodyBytes sourceIndex) := by
  have hlength : layout.plainBody.attributes.length = layout.codeAttributesCount.toNat :=
    layout.describes_plainBody.attributes
  have hattributes : Written.Sequence (Attribute.WrittenNested pool) layout.plainBody.attributes _ :=
    Written.Sequence.replicate (.sourceFile hsource) layout.codeAttributesCount.toNat
  refine ⟨?_, ?_, ?_, _, hattributes, ?_⟩
  · show 5 < 4294967296
    omega
  · show 0 < 65536
    omega
  · rw [hlength]
    exact layout.codeAttributesCount.toNat_lt
  · rw [hlength, UInt16.ofNat_toNat, plainBodyBytes]

end ConstructorLayout

namespace Layout

/-- The bytes of a class of the layout, given those of its constants and the indices of the two
names that it needs. -/
def plainBytes (layout : Layout) (constants : Bytes) (codeIndex sourceIndex : UInt16) : Bytes :=
  let constructor := layout.constructor
  layout.opening ++ Bytes.ofUInt16 layout.constantPoolCount ++ constants ++ layout.middle ++
    (Bytes.ofUInt16 constructor.access.bits ++ Bytes.ofUInt16 constructor.nameIndex ++
      Bytes.ofUInt16 constructor.descriptorIndex ++ Bytes.ofUInt16 1 ++
      (Attribute.header codeIndex 0 ++ constructor.plainBodyBytes sourceIndex)) ++
    Bytes.ofUInt16 1 ++
    (Attribute.header sourceIndex 2 ++ Bytes.ofUInt16 layout.sourceFileIndex)

/-- A pool that holds the two names, and is as large as the layout says, is the pool of a class. -/
theorem written_plainBytes (layout : Layout) {pool : Pool} {constants : Bytes}
    {codeIndex sourceIndex : UInt16} (hsize : pool.size = layout.constantPoolCount.toNat - 1)
    (hconstants : Written.Sequence Constant.Written pool.toList constants)
    (hcode : Attribute.Kind.code.NamedAt pool codeIndex)
    (hsource : Attribute.Kind.sourceFile.NamedAt pool sourceIndex) :
    layout.Written pool layout.constructor.plainBody
      (layout.plainBytes constants codeIndex sourceIndex) := by
  have hbody : Attribute.Written pool (.code layout.constructor.plainBody)
      (Attribute.header codeIndex 0 ++ layout.constructor.plainBodyBytes sourceIndex) :=
    .code hcode (layout.constructor.written_plainBodyBytes hsource)
  have hmethod : Method.Written pool (layout.constructor.method layout.constructor.plainBody) _ :=
    ⟨by show 1 < 65536; omega, _, Written.Sequence.singleton_iff.mpr hbody, rfl⟩
  exact ⟨hsize, layout.constructor.describes_plainBody, constants, _, _, hconstants, hmethod,
    .other (.sourceFile hsource), rfl⟩

/-- Such a class is accepted. -/
theorem gives_read_plainBytes (layout : Layout) {pool : Pool} {constants : Bytes}
    (codeIndex sourceIndex : UInt16) (hsize : pool.size = layout.constantPoolCount.toNat - 1)
    (hconstants : Written.Sequence Constant.Written pool.toList constants)
    (hcode : Attribute.Kind.code.NamedAt pool codeIndex)
    (hsource : Attribute.Kind.sourceFile.NamedAt pool sourceIndex) :
    layout.read.Gives (layout.plainBytes constants codeIndex sourceIndex)
      (layout.compiled pool layout.constructor.plainBody) [] :=
  gives_read_iff.mpr ⟨pool, _, _, (List.append_nil _).symm,
    layout.written_plainBytes hsize hconstants hcode hsource, rfl⟩

/-- The two names, and behind them as many entries as are missing. -/
def plainConstants (size : Nat) : List Constant :=
  [.utf8 Attribute.Kind.code.name, .utf8 Attribute.Kind.sourceFile.name] ++
    List.replicate (size - 2) (.classEntry 0)

theorem length_plainConstants {size : Nat} (htwo : 2 ≤ size) :
    (plainConstants size).length = size := by
  rw [plainConstants, List.length_append, List.length_replicate]
  simp only [List.length_cons, List.length_nil]
  omega

theorem exists_written_plainConstants (size : Nat) :
    ∃ constants, Written.Sequence Constant.Written (plainConstants size) constants := by
  have hcode := Attribute.Kind.code.written_nameBytes
  have hsource := Attribute.Kind.sourceFile.written_nameBytes
  have hmissing := Written.Sequence.replicate (@Constant.Written.classEntry 0) (size - 2)
  exact ⟨_, .cons hcode (.cons hsource hmissing)⟩

theorem exists_accepted_of_three_le {layout : Layout}
    (hthree : 3 ≤ layout.constantPoolCount.toNat) :
    ∃ bytes compiled, (layout.read bytes).result = .ok compiled := by
  obtain ⟨constants, hconstants⟩ :=
    exists_written_plainConstants (layout.constantPoolCount.toNat - 1)
  have hsize : (Pool.ofList (plainConstants (layout.constantPoolCount.toNat - 1))).size =
      layout.constantPoolCount.toNat - 1 := by
    rw [Pool.size_ofList]
    apply length_plainConstants
    omega
  exact ⟨_, _, (layout.gives_read_plainBytes 1 2 hsize hconstants rfl rfl).1⟩

/-- **A layout can be met if and only if its count is at least three.**  No other number in it
matters: with a smaller count all bytes are refused, and with any other there are bytes that are
accepted. -/
theorem can_be_met_iff (layout : Layout) :
    ((∃ bytes compiled, (layout.read bytes).result = .ok compiled) ↔
      3 ≤ layout.constantPoolCount) ∧
    ((∀ bytes, ∃ fault, (layout.read bytes).result = .error fault) ↔
      layout.constantPoolCount < 3) := by
  have hmet : (∃ bytes compiled, (layout.read bytes).result = .ok compiled) ↔
      3 ≤ layout.constantPoolCount := by
    rw [UInt16.le_iff_toNat_le]
    constructor
    · rintro ⟨bytes, compiled, haccepted⟩
      obtain ⟨pool, code, front, -, hwritten, -⟩ := gives_read_iff.mp ⟨haccepted, rfl⟩
      exact hwritten.three_le_count
    · intro hthree
      exact exists_accepted_of_three_le hthree
  refine ⟨hmet, ?_⟩
  rw [← UInt16.not_le, ← hmet]
  constructor
  · rintro hrefused ⟨bytes, compiled, haccepted⟩
    obtain ⟨fault, hfault⟩ := hrefused bytes
    rw [haccepted] at hfault
    cases hfault
  · intro hnever bytes
    rcases Reader.gives_or_fails layout.read bytes with ⟨compiled, _, hgives⟩ | ⟨fault, _, hfails⟩
    · exact absurd ⟨bytes, compiled, hgives.1⟩ hnever
    · exact ⟨fault, hfails.1⟩

end Layout

end ClassAudit
