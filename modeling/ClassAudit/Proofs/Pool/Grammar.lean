import ClassAudit.Pool.Reading
import ClassAudit.Proofs.Reader.Success
import ClassAudit.Written.Constant

/-!
# The grammar of a constant pool

`Constant.reads_read` says that reading a constant accepts exactly its written forms, and
`Pool.reads_read` says the same of the whole pool that a count announces: one written form for each
entry, and one entry less than the count says.

What the rest of a class asks of its pool is a look-up, and `Pool.lookup_eq_ok_iff` says when one
succeeds.
-/

namespace ClassAudit

namespace Constant

/-- The first byte of a constant tells what has to follow. -/
theorem gives_read_iff {bytes rest : Bytes} {constant : Constant} :
    Constant.read.Gives bytes constant rest ↔
      ∃ kind middle, bytes = Kind.tag kind :: middle ∧
        (Constant.readContent kind).Gives middle constant rest := by
  simp only [Constant.read, Reader.gives_bind_iff, Reader.gives_uint8_iff]
  refine ⟨fun hread => ?_, fun hkind => ?_⟩
  · obtain ⟨tag, middle, rfl, hcontent⟩ := hread
    cases hkind : Kind.ofTag? tag with
    | none =>
      rw [hkind] at hcontent
      exact absurd hcontent Reader.not_gives_fail
    | some kind =>
      rw [hkind] at hcontent
      have htag : tag = kind.tag := Kind.ofTag?_eq_some_iff.mp hkind
      exact ⟨kind, middle, by rw [htag], hcontent⟩
  · obtain ⟨kind, middle, rfl, hcontent⟩ := hkind
    refine ⟨kind.tag, middle, rfl, ?_⟩
    rw [Kind.ofTag?_eq_some_iff.mpr rfl]
    exact hcontent

/-- A text is its length, which has to fit into two bytes, and a payload that can be decoded. -/
theorem gives_readContent_utf8_iff {bytes rest : Bytes} {constant : Constant} :
    (Constant.readContent .utf8).Gives bytes constant rest ↔
      ∃ text payload, constant = .utf8 text ∧ payload.length < 65536 ∧
        Text.Payload.decode? payload = some text ∧
        bytes = Bytes.ofUInt16 (.ofNat payload.length) ++ (payload ++ rest) := by
  simp only [Constant.readContent, Reader.gives_bind_iff, Reader.gives_uint16_iff,
    Reader.gives_take_iff]
  refine ⟨fun hread => ?_, fun hwritten => ?_⟩
  · obtain ⟨length, _, rfl, payload, middle, ⟨hlength, rfl⟩, hdecoded⟩ := hread
    cases hpayload : Text.Payload.decode? payload with
    | none =>
      rw [hpayload] at hdecoded
      exact absurd hdecoded Reader.not_gives_fail
    | some text =>
      rw [hpayload] at hdecoded
      obtain ⟨rfl, rfl⟩ := Reader.gives_pure_iff.mp hdecoded
      have hshort : payload.length < 65536 := hlength ▸ length.toNat_lt
      refine ⟨text, payload, rfl, hshort, hpayload, ?_⟩
      rw [hlength, UInt16.ofNat_toNat]
  · obtain ⟨text, payload, rfl, hshort, hpayload, rfl⟩ := hwritten
    have hlength : payload.length = (UInt16.ofNat payload.length).toNat :=
      (UInt16.toNat_ofNat_of_lt' hshort).symm
    refine ⟨_, _, rfl, payload, rest, ⟨hlength, rfl⟩, ?_⟩
    rw [hpayload]
    exact Reader.gives_pure_iff.mpr ⟨rfl, rfl⟩

/-- Reading a constant accepts exactly its written forms. -/
theorem reads_read : Constant.read.Reads Constant.Written := by
  intro bytes constant rest
  rw [gives_read_iff]
  refine ⟨fun hread => ?_, fun hwritten => ?_⟩
  · obtain ⟨kind, middle, rfl, hcontent⟩ := hread
    cases kind with
    | utf8 =>
      obtain ⟨text, payload, rfl, hshort, hpayload, rfl⟩ := gives_readContent_utf8_iff.mp hcontent
      exact ⟨_, by simp, .utf8 hshort hpayload⟩
    | classEntry =>
      obtain ⟨nameIndex, rfl, rfl⟩ := Reader.gives_of_uint16_iff.mp hcontent
      exact ⟨_, by simp, .classEntry⟩
    | methodRef =>
      obtain ⟨classIndex, nameAndTypeIndex, rfl, rfl⟩ :=
        Reader.gives_of_two_uint16_iff.mp hcontent
      exact ⟨_, by simp, .methodRef⟩
    | nameAndType =>
      obtain ⟨nameIndex, descriptorIndex, rfl, rfl⟩ := Reader.gives_of_two_uint16_iff.mp hcontent
      exact ⟨_, by simp, .nameAndType⟩
  · obtain ⟨front, rfl, hfront⟩ := hwritten
    cases hfront with
    | @utf8 text payload hshort hpayload =>
      refine ⟨.utf8, _, rfl, gives_readContent_utf8_iff.mpr ?_⟩
      exact ⟨text, payload, rfl, hshort, hpayload, by simp⟩
    | @classEntry nameIndex =>
      refine ⟨.classEntry, _, rfl, Reader.gives_of_uint16_iff.mpr ?_⟩
      exact ⟨nameIndex, rfl, rfl⟩
    | @methodRef classIndex nameAndTypeIndex =>
      refine ⟨.methodRef, _, rfl, Reader.gives_of_two_uint16_iff.mpr ?_⟩
      exact ⟨classIndex, nameAndTypeIndex, rfl, by simp⟩
    | @nameAndType nameIndex descriptorIndex =>
      refine ⟨.nameAndType, _, rfl, Reader.gives_of_two_uint16_iff.mpr ?_⟩
      exact ⟨nameIndex, descriptorIndex, rfl, by simp⟩

/-- Reporting an entry takes nothing from the bytes. -/
theorem reads_readEntry (index : Nat) : (Constant.readEntry index).Reads Constant.Written := by
  intro bytes constant rest
  rw [← reads_read bytes constant rest]
  simp only [Constant.readEntry, Reader.gives_bind_iff, Reader.gives_report_iff,
    Reader.gives_pure_iff]
  refine ⟨fun hentry => ?_, fun hread => ⟨constant, rest, hread, (), rest, rfl, rfl, rfl⟩⟩
  obtain ⟨_, _, hread, _, _, rfl, rfl, rfl⟩ := hentry
  exact hread

theorem text?_eq_none_iff {constant : Constant} :
    constant.text? = none ↔ constant.kind ≠ .utf8 := by
  cases constant <;> simp [text?, kind]

theorem classNameIndex?_eq_none_iff {constant : Constant} :
    constant.classNameIndex? = none ↔ constant.kind ≠ .classEntry := by
  cases constant <;> simp [classNameIndex?, kind]

end Constant

namespace Pool

@[simp] theorem ofList_toList (pool : Pool) : ofList pool.toList = pool := rfl

@[simp] theorem size_ofList (constants : List Constant) :
    (ofList constants).size = constants.length := rfl

/-- Reading a pool accepts exactly the written forms of its entries, of which there is one less
than the count says, and none for the count zero. -/
theorem reads_read (count : UInt16) :
    (Pool.read count).Reads fun pool bytes =>
      pool.size = count.toNat - 1 ∧ Written.Sequence Constant.Written pool.toList bytes := by
  intro bytes pool rest
  simp only [Pool.read, Reader.gives_bind_iff, Reader.gives_pure_iff,
    Reader.Reads.repeatedFrom Constant.reads_readEntry 1 (count.toNat - 1) _ _ _]
  refine ⟨fun hread => ?_, fun hwritten => ?_⟩
  · obtain ⟨constants, _, ⟨front, rfl, hcount, hfront⟩, rfl, rfl⟩ := hread
    exact ⟨front, rfl, hcount, hfront⟩
  · obtain ⟨front, rfl, hcount, hfront⟩ := hwritten
    exact ⟨pool.toList, rest, ⟨front, rfl, hcount, hfront⟩, rfl, rfl⟩

/-! ## Looking entries up -/

/-- There is an entry at the indices from one to the size. -/
theorem get?_eq_none_iff {pool : Pool} {index : UInt16} :
    pool.get? index = none ↔ index = 0 ∨ pool.size < index.toNat := by
  by_cases hzero : index = 0
  · simp [hzero]
  · have hpositive : index.toNat ≠ 0 := by simpa [← UInt16.toNat_inj] using hzero
    rw [get?_eq_getElem? pool hzero, List.getElem?_eq_none_iff, length_toList]
    simp only [hzero, false_or]
    omega

/-- A look-up succeeds if there is an entry at the index and the view sees something in it. -/
theorem lookup_eq_ok_iff {α : Type} {pool : Pool} {kind : Constant.Kind}
    {view : Constant → Option α} {index : UInt16} {seen : α} :
    pool.lookup kind view index = .ok seen ↔
      ∃ constant, pool.get? index = some constant ∧ view constant = some seen := by
  unfold lookup
  cases pool.get? index with
  | none => simp
  | some constant => cases hview : view constant <;> simp [hview]

/-- A look-up fails if there is no entry at the index, or one in which the view sees nothing. -/
theorem lookup_eq_error_iff {α : Type} {pool : Pool} {kind : Constant.Kind}
    {view : Constant → Option α} {index : UInt16} {fault : Fault} :
    pool.lookup kind view index = .error fault ↔
      (pool.get? index = none ∧ fault = .invalidIndex index) ∨
        ∃ constant, pool.get? index = some constant ∧ view constant = none ∧
          fault = .unexpectedConstant kind index constant := by
  unfold lookup
  cases pool.get? index with
  | none => simp [eq_comm]
  | some constant => cases hview : view constant <;> simp [hview, eq_comm]

theorem text_eq_ok_iff {pool : Pool} {index : UInt16} {text : String} :
    pool.text index = .ok text ↔ pool.get? index = some (.utf8 text) := by
  rw [Pool.text, lookup_eq_ok_iff]
  refine ⟨fun hlookup => ?_, fun hget => ⟨_, hget, rfl⟩⟩
  obtain ⟨constant, hget, htext⟩ := hlookup
  cases constant <;> simp_all [Constant.text?]

end Pool

end ClassAudit
