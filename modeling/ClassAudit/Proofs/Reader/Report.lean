import ClassAudit.Layout.Reading
import ClassAudit.Proofs.Reader.Failure

/-!
# What a reader reports when it succeeds

`Reads` says what bytes a reader accepts.  `reader.Traces Form` says in addition what it reports:
the form of a value is made of bytes and of events, and a reading gives the value, leaves the rest
and reports some events if and only if the value has a form with just these bytes in front of the
rest and just these events.

`Traces.of_runs` obtains this from `Reads`, provided that the reader follows every form with events
(`Runs`) and that every written form has some.  Most readers are silent, and the lemmas of the first
part say so of all steps that occur in the reading of a class.
-/

namespace ClassAudit

namespace Written

/-- The bytes are the written forms of the members of a list, in order, and the events are those of
the members, in the same order. -/
inductive TracedSequence {α : Type} (Form : α → Bytes → List Event → Prop) :
    List α → Bytes → List Event → Prop where
  | nil : TracedSequence Form [] [] []
  | cons {first : α} {others : List α} {front back : Bytes} {before after : List Event}
      (head : Form first front before) (tail : TracedSequence Form others back after) :
      TracedSequence Form (first :: others) (front ++ back) (before ++ after)

end Written

namespace Reader

variable {α β : Type}

/-! ## Silent steps -/

theorem silent_uint32 : uint32.Silent := (silent_take .fixed 4).bind fun _ => silent_pure _

theorem silent_access : access.Silent := silent_uint16.bind fun _ => silent_pure _

theorem silent_check (made : Check) : (check made).Silent := by
  unfold check
  split
  · exact silent_pure ()
  · exact silent_fail _

theorem silent_checkAll (made : List Check) : (checkAll made).Silent := by
  unfold checkAll
  split
  · exact silent_pure ()
  · exact silent_fail _

theorem silent_expect (field : Field) (expected : UInt16) : (expect field expected).Silent :=
  silent_uint16.bind fun _ => (silent_check _).bind fun _ => silent_pure _

theorem silent_expectAccess (field : Field) (expected : Access) :
    (expectAccess field expected).Silent :=
  silent_access.bind fun _ => (silent_check _).bind fun _ => silent_pure _

theorem silent_expectHeader (expected : Bytes) : (expectHeader expected).Silent := by
  refine (silent_take .fixed 8).bind fun actual => ?_
  split
  · exact silent_pure ()
  · exact silent_fail _

theorem silent_ofExcept (computed : Except Fault α) : (ofExcept computed).Silent := by
  cases computed with
  | error fault => exact silent_fail fault
  | ok value => exact silent_pure value

theorem Silent.repeated {item : Reader α} (hitem : item.Silent) (count : Nat) :
    (Reader.repeated count item).Silent := by
  induction count with
  | zero => exact silent_pure []
  | succ count ih =>
    rw [repeated_succ]
    exact hitem.bind fun _ => ih.bind fun _ => silent_pure _

theorem silent_handler : Handler.read.Silent :=
  silent_uint16.bind fun _ => silent_uint16.bind fun _ => silent_uint16.bind fun _ =>
    silent_uint16.bind fun _ => silent_pure _

/-- The whole outcome of a silent reading. -/
theorem Silent.apply_of_gives {reader : Reader α} (hsilent : reader.Silent) {bytes rest : Bytes}
    {value : α} (hgives : reader.Gives bytes value rest) :
    reader bytes = ⟨.ok value, rest, []⟩ := by
  rw [hgives.outcome_eq, hsilent bytes]

/-- Behind a silent step that succeeds, a reading is that of the next step. -/
theorem Silent.bind_apply {first : Reader α} (hsilent : first.Silent) {bytes middle : Bytes}
    {found : α} (hgives : first.Gives bytes found middle) (next : α → Reader β) :
    (first >>= next) bytes = next found middle := by
  rw [bind_apply_of_ok (hsilent.apply_of_gives hgives)]
  rfl

theorem uint16_bind_append (number : UInt16) (next : UInt16 → Reader α) (rest : Bytes) :
    (uint16 >>= next) (Bytes.ofUInt16 number ++ rest) = next number rest :=
  silent_uint16.bind_apply (gives_uint16_iff.mpr rfl) next

theorem uint32_bind_append (number : UInt32) (next : UInt32 → Reader α) (rest : Bytes) :
    (uint32 >>= next) (Bytes.ofUInt32 number ++ rest) = next number rest :=
  silent_uint32.bind_apply (gives_uint32_iff.mpr rfl) next

theorem access_bind_append (flags : Access) (next : Access → Reader α) (rest : Bytes) :
    (access >>= next) (Bytes.ofUInt16 flags.bits ++ rest) = next flags rest :=
  silent_access.bind_apply (gives_access_iff.mpr rfl) next

theorem take_bind_append (extent : Extent) {size : Nat} {front : Bytes}
    (hsize : front.length = size) (next : Bytes → Reader α) (rest : Bytes) :
    (take extent size >>= next) (front ++ rest) = next front rest :=
  (silent_take extent size).bind_apply (gives_take_iff.mpr ⟨hsize, rfl⟩) next

/-! ## Forms with events -/

/-- Wherever the bytes of a form stand, the reader gives its value and reports its events. -/
def Runs (reader : Reader α) (Form : α → Bytes → List Event → Prop) : Prop :=
  ∀ value front log, Form value front log → ∀ rest, reader (front ++ rest) = ⟨.ok value, rest, log⟩

/-- A reader accepts exactly the bytes of a form, and reports its events. -/
def Traces (reader : Reader α) (Form : α → Bytes → List Event → Prop) : Prop :=
  ∀ bytes value rest log, reader bytes = ⟨.ok value, rest, log⟩ ↔
    ∃ front, bytes = front ++ rest ∧ Form value front log

theorem Traces.of_runs {reader : Reader α} {Plain : α → Bytes → Prop}
    {Form : α → Bytes → List Event → Prop} (hreads : reader.Reads Plain)
    (htraced : ∀ value front, Plain value front → ∃ log, Form value front log)
    (hruns : reader.Runs Form) : reader.Traces Form := by
  intro bytes value rest log
  constructor
  · intro houtcome
    have hgives : reader.Gives bytes value rest := by
      rw [Gives, houtcome]
      exact ⟨rfl, rfl⟩
    obtain ⟨front, rfl, hplain⟩ := (hreads bytes value rest).mp hgives
    obtain ⟨events, hform⟩ := htraced value front hplain
    -- a reader has one outcome, so the events of the form are those that were reported
    rw [hruns value front events hform rest] at houtcome
    cases houtcome
    exact ⟨front, rfl, hform⟩
  · rintro ⟨front, rfl, hform⟩
    exact hruns value front log hform rest

/-- A counted sequence reports what its items report, in order. -/
theorem Runs.repeated {item : Reader α} {Form : α → Bytes → List Event → Prop}
    (hitem : item.Runs Form) {values : List α} {front : Bytes} {log : List Event}
    (hform : Written.TracedSequence Form values front log) (rest : Bytes) :
    Reader.repeated values.length item (front ++ rest) = ⟨.ok values, rest, log⟩ := by
  induction hform with
  | nil => rfl
  | @cons value values front back before after hvalue _ ih =>
    have hfirst : item (front ++ (back ++ rest)) = ⟨.ok value, back ++ rest, before⟩ :=
      hitem value front before hvalue (back ++ rest)
    rw [List.length_cons, repeated_succ, List.append_assoc, bind_apply_of_ok hfirst,
      bind_apply_of_ok ih]
    simp [pure_eq, Reader.pure]

end Reader

/-- Where every member has events, a written list has them as well. -/
theorem Written.Sequence.exists_traced {α : Type} {Plain : α → Bytes → Prop}
    {Form : α → Bytes → List Event → Prop}
    (htraced : ∀ value front, Plain value front → ∃ log, Form value front log)
    {values : List α} {bytes : Bytes} (hwritten : Sequence Plain values bytes) :
    ∃ log, TracedSequence Form values bytes log := by
  induction hwritten with
  | nil => exact ⟨[], .nil⟩
  | cons hfirst _ ih =>
    obtain ⟨before, hbefore⟩ := htraced _ _ hfirst
    obtain ⟨after, hafter⟩ := ih
    exact ⟨before ++ after, .cons hbefore hafter⟩

end ClassAudit
