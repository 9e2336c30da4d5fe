import ClassAudit.Proofs.Attribute.Truncation
import ClassAudit.Proofs.Layout.Names
import ClassAudit.Proofs.Pool.Truncation

/-!
# Where the bytes of a class can be cut

`Layout.Divided` is the grammar of a layout with the fields of a class.  Of these the payloads of
the texts in the pool, the code of the body and the bodies of the debugging tables inside it are of
variable extent, and all others are fixed.

`truncation_tells_extent` says what a reading reports of an accepted class that is cut: the end of
the input, with the one message where the cut is in the range of a variable field, and with the
other message wherever else it is.  An empty field has no offset in its range, so a cut in front of
it is reported as a cut of the field behind it.

## Strategy

A class takes the fields that stand for it (`takes_read`), by the same steps by which it is read.
What the end of the input is reported with is then the extent of the field at the cut, and every
offset in front of the end is in a field (`Piece.exists_extentAt`).
-/

namespace ClassAudit

namespace Reader

theorem takes_expect (field : Field) (number : UInt16) :
    (expect field number).Takes [.fixed (Bytes.ofUInt16 number)] number := by
  have hpass : (check (.number field number.toNat number.toNat)).Takes [] () :=
    takes_nothing fun _ => gives_check_iff.mpr ⟨rfl, rfl⟩
  unfold expect
  apply (takes_uint16 number).bind
  exact hpass.bind (takes_pure number)

theorem takes_expectAccess (field : Field) (flags : Access) :
    (expectAccess field flags).Takes [.fixed (Bytes.ofUInt16 flags.bits)] flags := by
  have hpass : (check ⟨field, .access flags, .access flags⟩).Takes [] () :=
    takes_nothing fun _ => gives_check_iff.mpr ⟨rfl, rfl⟩
  unfold expectAccess
  apply (takes_access flags).bind
  exact hpass.bind (takes_pure flags)

theorem takes_expectHeader {expected : Bytes} (height : expected.length = 8) :
    (expectHeader expected).Takes [.fixed expected] () := by
  unfold expectHeader header
  apply (takes_take .fixed height).bind_nothing
  rw [if_pos rfl]
  exact takes_pure ()

end Reader

namespace Layout

open Reader

variable {layout : Layout}

/-- The fields of a class between its constants and its methods. -/
def middlePieces (layout : Layout) : List Piece :=
  [.fixed (Bytes.ofUInt16 layout.access.bits), .fixed (Bytes.ofUInt16 layout.thisClass),
    .fixed (Bytes.ofUInt16 layout.superClass), .fixed (Bytes.ofUInt16 0),
    .fixed (Bytes.ofUInt16 0), .fixed (Bytes.ofUInt16 1)]

/-- The fields stand for a class of a layout with given constants and a given body of its
constructor. -/
structure Divided (layout : Layout) (pool : Pool) (code : Code) (pieces : List Piece) : Prop where
  counted : pool.size = layout.constantPoolCount.toNat - 1
  described : layout.constructor.Describes code
  spelled : ∃ constants constructor sourceFile,
    List.Forall₂ Constant.Divided pool.toList constants ∧
    Method.Divided pool (layout.constructor.method code) constructor ∧
    Attribute.Divided pool (.sourceFile layout.sourceFileIndex) sourceFile ∧
    pieces = [.fixed layout.opening, .fixed (Bytes.ofUInt16 layout.constantPoolCount)] ++
      (constants.flatten ++ (layout.middlePieces ++
        (constructor ++ ([.fixed (Bytes.ofUInt16 1)] ++ sourceFile))))

/-- Every written form is made of fields. -/
theorem Written.exists_divided {pool : Pool} {code : Code} {bytes : Bytes}
    (hwritten : layout.Written pool code bytes) :
    ∃ pieces, layout.Divided pool code pieces ∧ Piece.joined pieces = bytes := by
  obtain ⟨_, _, _, hconstants, hconstructor, hsourceFile, rfl⟩ := hwritten.spelled
  obtain ⟨constants, hentries, rfl⟩ := hconstants.exists_divisions Constant.Written.exists_divided
  obtain ⟨constructor, hmethod, rfl⟩ := hconstructor.exists_divided
  obtain ⟨sourceFile, hattribute, rfl⟩ := hsourceFile.exists_divided
  refine ⟨_, ⟨hwritten.counted, hwritten.described, constants, constructor, sourceFile, hentries,
    hmethod, hattribute, rfl⟩, ?_⟩
  simp [middlePieces, middle, Piece.fixed]

/-- A class takes its fields. -/
theorem takes_read {pool : Pool} {code : Code} {pieces : List Piece}
    (hdivided : layout.Divided pool code pieces) :
    layout.read.Takes pieces (layout.compiled pool code) := by
  obtain ⟨constants, constructor, sourceFile, hconstants, hconstructor, hsourceFile, rfl⟩ :=
    hdivided.spelled
  have hpass : Check.firstFailure?
      (layout.constructor.checks (layout.constructor.method code)) = none :=
    ConstructorLayout.checks_pass_iff.mpr ⟨code, rfl, hdivided.described⟩
  have hpassAll : Check.firstFailure?
      (layout.attributeChecks [.sourceFile layout.sourceFileIndex]) = none :=
    (attributeChecks_pass_iff rfl).mpr rfl
  have hattributes : (Attribute.readAll 1 pool).Takes sourceFile
      [.sourceFile layout.sourceFileIndex] := by
    have hone := Takes.repeated Attribute.takes_read (.cons hsourceFile .nil)
    rwa [List.flatten_singleton] at hone
  unfold Layout.read
  rw [← header_eq_opening]
  -- the header and the constants
  apply (takes_expectHeader length_header).bind
  apply (takes_expect _ layout.constantPoolCount).bind
  apply (Pool.takes_read hdivided.counted hconstants).bind
  -- the six numbers in front of the constructor
  apply (takes_expectAccess _ layout.access).bind
  apply (takes_expect _ layout.thisClass).bind
  apply (takes_expect _ layout.superClass).bind
  apply (takes_expect _ 0).bind
  apply (takes_expect _ 0).bind
  apply (takes_expect _ 1).bind
  -- the constructor and the attributes, each with the checks behind it
  apply (Method.takes_read hconstructor).bind
  apply (takes_checkAll hpass).bind
  apply (takes_expect _ 1).bind
  apply hattributes.bind_nothing
  exact (takes_checkAll hpassAll).bind (takes_pure _)

/-- **A cut class is reported by the extent of the field that is cut.**  The bytes of an accepted
class are made of fields, and however they are divided by the grammar, a reading of fewer bytes than
were used ends with the end of the input.  The message is the one of variable fields if the offset
of the cut is in the half-open range of the payload of a text, of the code or of the body of a
debugging table, and the one of fixed fields if it is not. -/
theorem truncation_tells_extent {bytes rest : Bytes} {compiled : CompiledClass}
    (haccepted : (layout.read bytes).result = .ok compiled ∧ (layout.read bytes).rest = rest) :
    ∃ pool code, compiled = layout.compiled pool code ∧
      (∃ pieces, layout.Divided pool code pieces ∧ bytes = Piece.joined pieces ++ rest) ∧
      ∀ pieces, layout.Divided pool code pieces → bytes = Piece.joined pieces ++ rest →
        ∀ offset < bytes.length - rest.length, ∃ extent,
          (layout.read (bytes.take offset)).result = .error (.endOfInput extent) ∧
          ((Fault.endOfInput extent).message = "unexpected end of file" ↔
            Piece.InRange .variable pieces offset) ∧
          ((Fault.endOfInput extent).message = "failed to fill whole buffer" ↔
            ¬ Piece.InRange .variable pieces offset) := by
  obtain ⟨pool, code, front, rfl, hwritten, rfl⟩ := gives_read_iff.mp haccepted
  obtain ⟨pieces, hpieces, rfl⟩ := Written.exists_divided hwritten
  refine ⟨pool, code, rfl, ⟨pieces, hpieces, rfl⟩, fun division hdivision hbytes offset hless => ?_⟩
  rw [hbytes, List.length_append, Nat.add_sub_cancel] at hless
  obtain ⟨extent, hextent⟩ := Piece.exists_extentAt hless
  have hcut := (takes_read hdivision).cut_short offset extent hextent
  rw [hbytes, List.take_append_of_le_length (Nat.le_of_lt hless)]
  refine ⟨extent, hcut, ?_⟩
  rw [← Piece.extentAt_eq_some_iff, hextent]
  have hfixed : (Fault.endOfInput .fixed).message = "failed to fill whole buffer" := rfl
  have hvariable : (Fault.endOfInput .variable).message = "unexpected end of file" := rfl
  cases extent with
  | fixed =>
    rw [hfixed]
    simp
  | «variable» =>
    rw [hvariable]
    simp

/-- In the small class the payload of the first text begins at the thirteenth byte. -/
theorem truncation_of_small : ∃ pieces,
    small.plainBytes smallPoolBytes 1 2 = Piece.joined pieces ∧
      Piece.InRange .variable pieces 13 ∧ ¬ Piece.InRange .variable pieces 12 := by
  have haccepted := small.gives_read_plainBytes 1 2 rfl written_smallPool.1 rfl rfl
  obtain ⟨pool, code, -, ⟨pieces, hpieces, hbytes⟩, hcut⟩ := truncation_tells_extent haccepted
  have hinside : (small.read ((small.plainBytes smallPoolBytes 1 2).take 13)).result =
      .error (.endOfInput .variable) := rfl
  have hbefore : (small.read ((small.plainBytes smallPoolBytes 1 2).take 12)).result =
      .error (.endOfInput .fixed) := rfl
  refine ⟨pieces, by rw [hbytes, List.append_nil], ?_, ?_⟩
  · obtain ⟨extent, hresult, hmessage, -⟩ := hcut pieces hpieces hbytes 13 (by decide)
    rw [hinside] at hresult
    cases hresult
    exact hmessage.mp rfl
  · obtain ⟨extent, hresult, -, hmessage⟩ := hcut pieces hpieces hbytes 12 (by decide)
    rw [hbefore] at hresult
    cases hresult
    exact hmessage.mp rfl

end Layout

end ClassAudit
