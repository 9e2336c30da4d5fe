import ClassAudit.Bytes

/-!
# Written sequences

The written form of a list is the written forms of its members, one behind the other.
-/

namespace ClassAudit.Written

/-- The bytes are the written forms of the members of a list, in order. -/
inductive Sequence {α : Type} (Form : α → Bytes → Prop) : List α → Bytes → Prop where
  | nil : Sequence Form [] []
  | cons {first : α} {others : List α} {front back : Bytes} (head : Form first front)
      (tail : Sequence Form others back) : Sequence Form (first :: others) (front ++ back)

namespace Sequence

variable {α : Type} {Form : α → Bytes → Prop}

@[simp] theorem nil_iff {bytes : Bytes} : Sequence Form [] bytes ↔ bytes = [] := by
  refine ⟨fun written => ?_, fun hnone => hnone ▸ nil⟩
  cases written
  rfl

theorem cons_iff {first : α} {others : List α} {bytes : Bytes} :
    Sequence Form (first :: others) bytes ↔
      ∃ front back, bytes = front ++ back ∧ Form first front ∧ Sequence Form others back := by
  refine ⟨fun written => ?_, fun hsplit => ?_⟩
  · cases written with
    | cons head tail => exact ⟨_, _, rfl, head, tail⟩
  · obtain ⟨front, back, rfl, head, tail⟩ := hsplit
    exact cons head tail

theorem singleton_iff {member : α} {bytes : Bytes} :
    Sequence Form [member] bytes ↔ Form member bytes := by
  rw [cons_iff]
  refine ⟨fun hsplit => ?_, fun hform => ⟨bytes, [], by simp, hform, nil⟩⟩
  obtain ⟨front, back, rfl, hform, tail⟩ := hsplit
  rw [nil_iff.mp tail, List.append_nil]
  exact hform

/-- Where every member has one written form, a written list has one as well. -/
theorem eq_flatMap_iff {write : α → Bytes} {members : List α} {bytes : Bytes} :
    Sequence (fun member form => form = write member) members bytes ↔
      bytes = members.flatMap write := by
  induction members generalizing bytes with
  | nil => simp
  | cons first others ih =>
    rw [cons_iff, List.flatMap_cons]
    refine ⟨fun hsplit => ?_, fun hbytes => ?_⟩
    · obtain ⟨_, back, rfl, rfl, tail⟩ := hsplit
      rw [ih.mp tail]
    · exact ⟨write first, others.flatMap write, hbytes, rfl, ih.mpr rfl⟩

/-- Two written lists, one behind the other, are their concatenation written. -/
theorem append {front back : List α} {before after : Bytes} (first : Sequence Form front before)
    (second : Sequence Form back after) : Sequence Form (front ++ back) (before ++ after) := by
  induction first with
  | nil => exact second
  | cons head _ ih =>
    rw [List.append_assoc]
    exact cons head ih

/-- A member that is repeated is its written form repeated. -/
theorem replicate {member : α} {form : Bytes} (written : Form member form) (count : Nat) :
    Sequence Form (List.replicate count member) (List.replicate count form).flatten := by
  induction count with
  | zero => exact nil
  | succ count ih =>
    rw [List.replicate_succ, List.replicate_succ, List.flatten_cons]
    exact cons written ih

end Sequence

end ClassAudit.Written
