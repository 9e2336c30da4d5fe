import ClassAudit.Proofs.Pool.Grammar
import ClassAudit.Proofs.Reader.Truncation

/-!
# Where the bytes of a constant pool can be cut

The fields of a constant are the byte of its kind and the numbers behind it, all of a fixed extent,
and in a text, behind the length, its payload.  `Divided` is the grammar of constants with these
fields, and a pool takes the fields of its entries (`Pool.takes_read`).
-/

namespace ClassAudit

open Reader

namespace Constant

/-- The fields stand for a constant.  Only the payload of a text is of variable extent. -/
inductive Divided : Constant → List Piece → Prop where
  | utf8 {text : String} {payload : Bytes} (short : payload.length < 65536)
      (readable : Text.Payload.decode? payload = some text) :
      Divided (.utf8 text) [.fixed [Kind.utf8.tag],
        .fixed (Bytes.ofUInt16 (.ofNat payload.length)), ⟨.variable, payload⟩]
  | classEntry {nameIndex : UInt16} :
      Divided (.classEntry nameIndex) [.fixed [Kind.classEntry.tag],
        .fixed (Bytes.ofUInt16 nameIndex)]
  | methodRef {classIndex nameAndTypeIndex : UInt16} :
      Divided (.methodRef classIndex nameAndTypeIndex) [.fixed [Kind.methodRef.tag],
        .fixed (Bytes.ofUInt16 classIndex), .fixed (Bytes.ofUInt16 nameAndTypeIndex)]
  | nameAndType {nameIndex descriptorIndex : UInt16} :
      Divided (.nameAndType nameIndex descriptorIndex) [.fixed [Kind.nameAndType.tag],
        .fixed (Bytes.ofUInt16 nameIndex), .fixed (Bytes.ofUInt16 descriptorIndex)]

/-- Every written form is made of fields. -/
theorem Written.exists_divided (constant : Constant) (bytes : Bytes)
    (hwritten : Constant.Written constant bytes) :
    ∃ pieces, Divided constant pieces ∧ Piece.joined pieces = bytes := by
  cases hwritten with
  | utf8 hshort hreadable => exact ⟨_, .utf8 hshort hreadable, by simp [Piece.fixed]⟩
  | classEntry => exact ⟨_, .classEntry, by simp [Piece.fixed]⟩
  | methodRef => exact ⟨_, .methodRef, by simp [Piece.fixed]⟩
  | nameAndType => exact ⟨_, .nameAndType, by simp [Piece.fixed]⟩

/-- The byte of its kind is the first field of a constant. -/
theorem takes_of_content {kind : Kind} {pieces : List Piece} {constant : Constant}
    (hcontent : (readContent kind).Takes pieces constant) :
    Constant.read.Takes (.fixed [kind.tag] :: pieces) constant := by
  unfold Constant.read
  apply (takes_uint8 kind.tag).bind
  rw [Kind.ofTag?_eq_some_iff.mpr rfl]
  exact hcontent

/-- A constant takes its fields. -/
theorem takes_read {constant : Constant} {pieces : List Piece}
    (hdivided : Divided constant pieces) : Constant.read.Takes pieces constant := by
  cases hdivided with
  | @utf8 text payload hshort hreadable =>
    have hlength : payload.length = (UInt16.ofNat payload.length).toNat :=
      (UInt16.toNat_ofNat_of_lt' hshort).symm
    apply takes_of_content
    apply (takes_uint16 _).bind
    apply (takes_take .variable hlength).bind_nothing
    rw [hreadable]
    exact takes_pure _
  | classEntry =>
    apply takes_of_content
    exact (takes_uint16 _).bind_nothing (takes_pure _)
  | methodRef =>
    apply takes_of_content
    apply (takes_uint16 _).bind
    exact (takes_uint16 _).bind_nothing (takes_pure _)
  | nameAndType =>
    apply takes_of_content
    apply (takes_uint16 _).bind
    exact (takes_uint16 _).bind_nothing (takes_pure _)

/-- Reporting an entry takes nothing. -/
theorem takes_readEntry (index : Nat) (constant : Constant) (pieces : List Piece)
    (hdivided : Divided constant pieces) :
    (Constant.readEntry index).Takes pieces constant := by
  unfold Constant.readEntry
  apply (takes_read hdivided).bind_nothing
  exact (takes_report _).bind (takes_pure constant)

end Constant

/-- A pool takes the fields of its entries. -/
theorem Pool.takes_read {pool : Pool} {count : UInt16} {divisions : List (List Piece)}
    (hcounted : pool.size = count.toNat - 1)
    (hdivided : List.Forall₂ Constant.Divided pool.toList divisions) :
    (Pool.read count).Takes divisions.flatten pool := by
  have hentries := Takes.repeatedFrom Constant.takes_readEntry hdivided 1
  rw [Pool.length_toList, hcounted] at hentries
  unfold Pool.read
  exact hentries.bind_nothing (takes_pure _)

end ClassAudit
