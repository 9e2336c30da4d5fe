import ClassAudit.Proofs.Reader.Failure
import Mathlib.Data.List.Forall2

/-!
# Bytes that are cut inside a field

The bytes of a file are fields, one behind the other.  The number of bytes in a field is either
fixed or was read before the field, and a `Piece` keeps which of the two it is.  If a reader takes
its bytes piece by piece (`reader.Takes pieces value`), then it gives the value when all pieces are
there, and when they are cut at an offset it fails with the extent of the piece at that offset.

## Strategy

Where the pieces of two readers stand behind each other, an offset is in front of their boundary or
not, and `extentAt_append_of_lt` and `extentAt_append_of_le` say to which piece it belongs.  So the
property is closed under `>>=` (`Takes.bind`), and hence under counted repetition
(`Takes.repeatedFrom`).  A piece without bytes has no offset: `extentAt` passes it over.
-/

namespace ClassAudit

/-- A field of a file: its bytes and how their number is known. -/
structure Piece where
  extent : Extent
  bytes : Bytes

namespace Piece

/-- A field whose number of bytes is fixed. -/
def fixed (bytes : Bytes) : Piece := ⟨.fixed, bytes⟩

/-- The bytes of fields that stand one behind the other. -/
def joined (pieces : List Piece) : Bytes :=
  pieces.flatMap Piece.bytes

/-- The offset is in the half-open range of a field of the given extent. -/
def InRange (extent : Extent) (pieces : List Piece) (offset : Nat) : Prop :=
  ∃ before piece after, pieces = before ++ piece :: after ∧ piece.extent = extent ∧
    (joined before).length ≤ offset ∧ offset < (joined before).length + piece.bytes.length

/-- The extent of the field at an offset. -/
def extentAt : List Piece → Nat → Option Extent
  | [], _ => none
  | piece :: later, offset =>
    if offset < piece.bytes.length then some piece.extent
    else extentAt later (offset - piece.bytes.length)

@[simp] theorem joined_nil : joined [] = [] := rfl

@[simp] theorem joined_cons (piece : Piece) (later : List Piece) :
    joined (piece :: later) = piece.bytes ++ joined later :=
  List.flatMap_cons

@[simp] theorem joined_append (front back : List Piece) :
    joined (front ++ back) = joined front ++ joined back :=
  List.flatMap_append

/-! ## The field at an offset -/

variable {front back pieces : List Piece} {offset : Nat} {extent : Extent}

theorem extentAt_append_of_lt (hbefore : offset < (joined front).length) :
    extentAt (front ++ back) offset = extentAt front offset := by
  induction front generalizing offset with
  | nil => exact absurd hbefore (Nat.not_lt_zero offset)
  | cons piece front ih =>
    rw [joined_cons, List.length_append] at hbefore
    rw [List.cons_append, extentAt, extentAt]
    split
    · rfl
    · apply ih
      omega

theorem extentAt_append_of_le (hbehind : (joined front).length ≤ offset) :
    extentAt (front ++ back) offset = extentAt back (offset - (joined front).length) := by
  induction front generalizing offset with
  | nil => rfl
  | cons piece front ih =>
    rw [joined_cons, List.length_append] at hbehind
    rw [List.cons_append, extentAt, if_neg (by omega), ih (by omega), joined_cons,
      List.length_append, Nat.sub_sub]

/-- Every offset is in a field. -/
theorem exists_extentAt (hinside : offset < (joined pieces).length) :
    ∃ extent, extentAt pieces offset = some extent := by
  induction pieces generalizing offset with
  | nil => exact absurd hinside (Nat.not_lt_zero offset)
  | cons piece later ih =>
    rw [joined_cons, List.length_append] at hinside
    unfold extentAt
    split
    · exact ⟨piece.extent, rfl⟩
    · apply ih
      omega

/-- The extent at an offset is that of the field in whose range the offset is. -/
theorem extentAt_eq_some_iff :
    extentAt pieces offset = some extent ↔ InRange extent pieces offset := by
  refine ⟨fun hextent => ?_, fun hrange => ?_⟩
  · induction pieces generalizing offset with
    | nil => cases hextent
    | cons piece later ih =>
      unfold extentAt at hextent
      split at hextent
      · next hhere =>
        cases hextent
        exact ⟨[], piece, later, rfl, rfl, Nat.zero_le offset, by simpa using hhere⟩
      · next hlater =>
        obtain ⟨before, found, after, rfl, hfound, hlow, hhigh⟩ := ih hextent
        refine ⟨piece :: before, found, after, rfl, hfound, ?_, ?_⟩
        · rw [joined_cons, List.length_append]
          omega
        · rw [joined_cons, List.length_append]
          omega
  · obtain ⟨before, piece, after, rfl, rfl, hlow, hhigh⟩ := hrange
    rw [extentAt_append_of_le hlow, extentAt, if_pos (by omega)]

end Piece

namespace Reader

open Piece (joined extentAt)

variable {α β : Type}

/-- The reader takes its bytes piece by piece: it gives the value when all of them are there, and
fails with the extent of the piece inside which they are cut. -/
structure Takes (reader : Reader α) (pieces : List Piece) (value : α) : Prop where
  gives : ∀ rest, reader.Gives (joined pieces ++ rest) value rest
  cut_short : ∀ offset extent, extentAt pieces offset = some extent →
    (reader ((joined pieces).take offset)).result = .error (.endOfInput extent)

/-! ## Steps and their composition -/

/-- A step that takes nothing is never cut. -/
theorem takes_nothing {reader : Reader α} {value : α}
    (hgives : ∀ bytes, reader.Gives bytes value bytes) : reader.Takes [] value where
  gives := hgives
  cut_short := by
    intro offset extent hextent
    cases hextent

theorem takes_pure (value : α) : (pure value : Reader α).Takes [] value :=
  takes_nothing fun _ => gives_pure_iff.mpr ⟨rfl, rfl⟩

theorem takes_take (extent : Extent) {size : Nat} {bytes : Bytes} (hsize : bytes.length = size) :
    (take extent size).Takes [⟨extent, bytes⟩] bytes where
  gives := by
    intro rest
    rw [Piece.joined_cons, Piece.joined_nil, List.append_nil]
    exact gives_take_iff.mpr ⟨hsize, rfl⟩
  cut_short := by
    intro offset found hfound
    rw [extentAt] at hfound
    split at hfound
    · next hinside =>
      cases hfound
      rw [Piece.joined_cons, Piece.joined_nil, List.append_nil, take_of_lt]
      rw [List.length_take]
      dsimp only at hinside
      omega
    · cases hfound

/-- Readers one behind the other take their pieces one behind the other. -/
theorem Takes.bind {first : Reader α} {next : α → Reader β} {front back : List Piece} {found : α}
    {value : β} (hfirst : first.Takes front found) (hnext : (next found).Takes back value) :
    (first >>= next).Takes (front ++ back) value where
  gives := by
    intro rest
    rw [Piece.joined_append, List.append_assoc]
    exact gives_bind_iff.mpr ⟨found, joined back ++ rest, hfirst.gives _, hnext.gives rest⟩
  cut_short := by
    intro offset extent hextent
    rw [Piece.joined_append]
    by_cases hbefore : offset < (joined front).length
    · rw [Piece.extentAt_append_of_lt hbefore] at hextent
      rw [List.take_append_of_le_length (Nat.le_of_lt hbefore)]
      have hfails := hfirst.cut_short offset extent hextent
      exact (fails_bind_iff.mpr (.inl ⟨hfails, rfl⟩)).1
    · have hbehind : (joined front).length ≤ offset := Nat.le_of_not_lt hbefore
      rw [Piece.extentAt_append_of_le hbehind] at hextent
      rw [List.take_append, List.take_of_length_le hbehind, (hfirst.gives _).result_bind]
      exact hnext.cut_short _ extent hextent

/-- What is made of a value in the end takes nothing. -/
theorem Takes.bind_nothing {first : Reader α} {next : α → Reader β} {pieces : List Piece}
    {found : α} {value : β} (hfirst : first.Takes pieces found) (hnext : (next found).Takes [] value) :
    (first >>= next).Takes pieces value := by
  rw [← List.append_nil pieces]
  exact hfirst.bind hnext

/-! ## Numbers and checks -/

/-- What is made of as many bytes as its type says. -/
theorem takes_of_fixed {size : Nat} {bytes : Bytes} {view : Bytes → α} {value : α}
    (hsize : bytes.length = size) (hvalue : view bytes = value) :
    (do let taken ← take .fixed size; return view taken : Reader α).Takes [.fixed bytes] value :=
  (takes_take .fixed hsize).bind_nothing (hvalue ▸ takes_pure (view bytes))

theorem takes_uint8 (number : UInt8) : uint8.Takes [.fixed [number]] number := by
  unfold uint8
  refine takes_of_fixed rfl ?_
  rw [Bytes.value_singleton, UInt8.ofNat_toNat]

theorem takes_uint16 (number : UInt16) : uint16.Takes [.fixed (Bytes.ofUInt16 number)] number := by
  unfold uint16
  refine takes_of_fixed (Bytes.length_ofUInt16 number) ?_
  rw [Bytes.value_ofUInt16, UInt16.ofNat_toNat]

theorem takes_uint32 (number : UInt32) : uint32.Takes [.fixed (Bytes.ofUInt32 number)] number := by
  unfold uint32
  refine takes_of_fixed (Bytes.length_ofUInt32 number) ?_
  rw [Bytes.value_ofUInt32, UInt32.ofNat_toNat]

theorem takes_access (flags : Access) : access.Takes [.fixed (Bytes.ofUInt16 flags.bits)] flags :=
  (takes_uint16 flags.bits).bind_nothing (takes_pure flags)

theorem takes_report (event : Event) : (report event).Takes [] () :=
  takes_nothing fun _ => gives_report_iff.mpr rfl

theorem takes_checkAll {made : List Check} (hpass : Check.firstFailure? made = none) :
    (checkAll made).Takes [] () :=
  takes_nothing fun _ => gives_checkAll_iff.mpr ⟨hpass, rfl⟩

/-! ## Repetition -/

/-- A counted sequence takes the pieces of its members. -/
theorem Takes.repeatedFrom {item : Nat → Reader α} {Form : α → List Piece → Prop}
    (hitem : ∀ index value pieces, Form value pieces → (item index).Takes pieces value)
    {values : List α} {divisions : List (List Piece)} (hforms : List.Forall₂ Form values divisions)
    (index : Nat) :
    (Reader.repeatedFrom index values.length item).Takes divisions.flatten values := by
  induction hforms generalizing index with
  | nil => exact takes_pure []
  | @cons value pieces values divisions hform _ ih =>
    rw [List.length_cons, repeatedFrom_succ, List.flatten_cons]
    apply (hitem index value pieces hform).bind
    exact (ih (index + 1)).bind_nothing (takes_pure _)

theorem Takes.repeated {item : Reader α} {Form : α → List Piece → Prop}
    (hitem : ∀ value pieces, Form value pieces → item.Takes pieces value) {values : List α}
    {divisions : List (List Piece)} (hforms : List.Forall₂ Form values divisions) :
    (Reader.repeated values.length item).Takes divisions.flatten values :=
  Takes.repeatedFrom (fun _ => hitem) hforms 0

end Reader

/-- If every written form can be divided into pieces, then so can a sequence of them. -/
theorem Written.Sequence.exists_divisions {α : Type} {Plain : α → Bytes → Prop}
    {Form : α → List Piece → Prop}
    (hform : ∀ value bytes, Plain value bytes → ∃ pieces, Form value pieces ∧
      Piece.joined pieces = bytes)
    {values : List α} {bytes : Bytes} (hwritten : Written.Sequence Plain values bytes) :
    ∃ divisions, List.Forall₂ Form values divisions ∧ Piece.joined divisions.flatten = bytes := by
  induction hwritten with
  | nil => exact ⟨[], .nil, rfl⟩
  | cons hfirst _ ih =>
    obtain ⟨pieces, hpieces, rfl⟩ := hform _ _ hfirst
    obtain ⟨divisions, hdivisions, rfl⟩ := ih
    refine ⟨pieces :: divisions, .cons hpieces hdivisions, ?_⟩
    rw [List.flatten_cons, Piece.joined_append]

end ClassAudit
