import ClassAudit.Proofs.Layout.Faults
import ClassAudit.Proofs.Layout.Satisfiable
import ClassAudit.Proofs.Text.Delimiters
import Mathlib.Data.List.Nodup

/-!
# The texts of a mismatch

A mismatch is reported by texts alone: the name of a field, the value that the layout fixes for it
and the value that was found.  `mismatch_texts_tell_values_apart` says that nothing is lost by this.
The two texts of a report differ, and two values found in one field have different texts.

The argument has two halves.  Each kind of value is shown injectively (`Value.text_inj`): a number
by its digits, an opcode by its number in hexadecimal, an attribute by its name, and a set of access
flags by the names of its flags.  The bit that has two names is no exception, because a set that has
it is always shown with both.  Values of different kinds need not be told apart, since both values
of a report are of the kind that belongs to the field (`Layout.failsOnly_read_reports`).
-/

namespace ClassAudit

/-- A field is known by its name. -/
theorem Field.name_injective : Function.Injective Field.name := by
  have hdistinct : (Field.all.map Field.name).Nodup := by
    rw [map_name_all]
    decide
  intro first second hname
  exact List.inj_on_of_nodup_map hdistinct (mem_all first) (mem_all second) hname

/-! ## Sets of access flags -/

namespace Access

theorem Flag.mem_all (flag : Flag) : flag ∈ all := by
  cases flag <;> decide

theorem Flag.name_injective : Function.Injective name := by
  have hdistinct : (all.map name).Nodup := by decide
  intro first second hname
  exact List.inj_on_of_nodup_map hdistinct (mem_all first) (mem_all second) hname

theorem Flag.space_not_mem_name (flag : Flag) : ' ' ∉ flag.name.toList := by
  cases flag <;> decide

/-- Every bit has a flag. -/
theorem Flag.exists_mask {position : Nat} (hposition : position < 16) :
    ∃ flag : Flag, flag.mask.toBitVec = BitVec.twoPow 16 position := by
  have hall : ∀ position : Fin 16,
      ∃ flag ∈ all, flag.mask.toBitVec = BitVec.twoPow 16 position.val := by decide
  obtain ⟨flag, -, hmask⟩ := hall ⟨position, hposition⟩
  exact ⟨flag, hmask⟩

/-- A set is known by its flags. -/
theorem flags_injective : Function.Injective flags := by
  intro first second hflags
  have hbits : first.bits.toBitVec = second.bits.toBitVec := by
    apply BitVec.eq_of_getLsbD_eq
    intro position hposition
    obtain ⟨flag, hmask⟩ := Flag.exists_mask hposition
    have hset (access : Access) :
        flag ∈ access.flags ↔ access.bits.toBitVec.getLsbD position = true := by
      rw [mem_flags_iff, ← UInt16.toBitVec_inj, UInt16.toBitVec_and, hmask, BitVec.and_twoPow]
      by_cases hbit : access.bits.toBitVec.getLsbD position = true
      · simp only [hbit, if_true]
      · have hmask : 0#16 ≠ BitVec.twoPow 16 position := by
          intro hzero
          have hset := congrArg (BitVec.getLsbD · position) hzero
          simp [hposition] at hset
        simp only [hbit, Bool.false_eq_true, if_false, hmask]
    rw [Bool.eq_iff_iff, ← hset first, ← hset second, hflags]
  have hnumbers := UInt16.toBitVec_inj.mp hbits
  cases first
  cases second
  cases hnumbers
  rfl

/-- The words by which some flags are shown. -/
def Flag.words : List Flag → List String
  | [] => ["(empty)"]
  | flags => flags.map name

theorem Flag.words_ne_nil (flags : List Flag) : words flags ≠ [] := by
  cases flags with
  | nil => exact List.cons_ne_nil _ _
  | cons flag others => exact List.cons_ne_nil _ _

theorem Flag.space_not_mem_words (flags : List Flag) :
    ∀ word ∈ (words flags).map String.toList, ' ' ∉ word := by
  cases flags with
  | nil => decide
  | cons flag others =>
    intro word hword
    obtain ⟨text, htext, rfl⟩ := List.mem_map.mp hword
    obtain ⟨named, -, rfl⟩ : ∃ named ∈ flag :: others, named.name = text := List.mem_map.mp htext
    exact named.space_not_mem_name

theorem Flag.words_injective : Function.Injective words := by
  have hnone (flag : Flag) (others : List Flag) : words [] ≠ words (flag :: others) := by
    intro hwords
    have hname : "(empty)" = flag.name := (List.cons.inj hwords).1
    revert hname
    cases flag <;> decide
  intro first second hwords
  cases first with
  | nil =>
    cases second with
    | nil => rfl
    | cons flag others => exact absurd hwords (hnone flag others)
  | cons flag others =>
    cases second with
    | nil => exact absurd hwords.symm (hnone flag others)
    | cons _ _ => exact List.map_injective_iff.mpr name_injective hwords

theorem toList_text (access : Access) :
    access.text.toList =
      " | ".toList.intercalate ((Flag.words access.flags).map String.toList) := by
  rw [← String.toList_intercalate, text, Flag.words.eq_def]
  cases access.flags with
  | nil => rw [String.intercalate_singleton]
  | cons flag others => rfl

/-- Two sets that are shown alike are the same. -/
theorem text_injective : Function.Injective text := by
  intro first second htext
  have hchars := congrArg String.toList htext
  rw [toList_text, toList_text] at hchars
  have hsome (access : Access) : (Flag.words access.flags).map String.toList ≠ [] := by
    rw [Ne, List.map_eq_nil_iff]
    exact Flag.words_ne_nil access.flags
  have hwords := Text.intercalate_inj (Flag.space_not_mem_words first.flags)
    (Flag.space_not_mem_words second.flags) (hsome first) (hsome second) hchars
  have hstrings := List.map_injective_iff.mpr (fun _ _ => String.toList_inj.mp) hwords
  exact flags_injective (Flag.words_injective hstrings)

end Access

/-! ## Opcodes -/

theorem Text.Hexadecimal.byte_injective : Function.Injective byte := by
  intro first second hbyte
  have hdigit : ∀ one other : Fin 16, byte.digit one.val = byte.digit other.val → one = other := by
    decide
  have hchars := String.ofList_injective hbyte
  obtain ⟨hupper, hlower⟩ : byte.digit (first.toNat / 16) = byte.digit (second.toNat / 16) ∧
      byte.digit (first.toNat % 16) = byte.digit (second.toNat % 16) := by
    simpa using hchars
  have hfirst := first.toNat_lt
  have hsecond := second.toNat_lt
  have hquotient := hdigit ⟨first.toNat / 16, by omega⟩ ⟨second.toNat / 16, by omega⟩ hupper
  have hremainder := hdigit ⟨first.toNat % 16, by omega⟩ ⟨second.toNat % 16, by omega⟩ hlower
  rw [Fin.mk.injEq] at hquotient hremainder
  apply UInt8.toNat_inj.mp
  omega

namespace Opcode

/-- A mnemonic is a single word and does not begin as a number does. -/
theorem mnemonic?_word {opcode : Opcode} {mnemonic : String}
    (hmnemonic : opcode.mnemonic? = some mnemonic) :
    ' ' ∉ mnemonic.toList ∧ ∃ first others, mnemonic.toList = first :: others ∧ first ≠ '0' := by
  unfold mnemonic? at hmnemonic
  split_ifs at hmnemonic <;> cases hmnemonic <;> exact ⟨by decide, _, _, rfl, by decide⟩

theorem toList_text_of_none {opcode : Opcode} (hnone : opcode.mnemonic? = none) :
    opcode.text.toList = '0' :: 'x' :: (Text.Hexadecimal.byte opcode).toList := by
  simp [text, hnone]

theorem toList_text_of_some {opcode : Opcode} {mnemonic : String}
    (hmnemonic : opcode.mnemonic? = some mnemonic) :
    opcode.text.toList = mnemonic.toList ++
      ' ' :: ("(0x".toList ++ ((Text.Hexadecimal.byte opcode).toList ++ [')'])) := by
  simp [text, hmnemonic]

/-- An opcode with a mnemonic is not shown as one without. -/
theorem text_ne_of_mnemonic {opcode other : Opcode} {mnemonic : String}
    (hmnemonic : opcode.mnemonic? = some mnemonic) (hnone : other.mnemonic? = none) :
    opcode.text ≠ other.text := by
  intro htext
  obtain ⟨-, first, others, hfirst, hletter⟩ := mnemonic?_word hmnemonic
  have hchars := congrArg String.toList htext
  rw [toList_text_of_some hmnemonic, toList_text_of_none hnone, hfirst, List.cons_append] at hchars
  exact hletter (List.cons.inj hchars).1

/-- Two opcodes that are shown alike are the same. -/
theorem text_injective : Function.Injective text := by
  intro first second htext
  have hchars := congrArg String.toList htext
  cases hfirst : first.mnemonic? with
  | none =>
    cases hsecond : second.mnemonic? with
    | none =>
      rw [toList_text_of_none hfirst, toList_text_of_none hsecond] at hchars
      have hbytes := (List.cons.inj (List.cons.inj hchars).2).2
      exact Text.Hexadecimal.byte_injective (String.toList_inj.mp hbytes)
    | some mnemonic => exact absurd htext.symm (text_ne_of_mnemonic hsecond hfirst)
  | some mnemonic =>
    cases hsecond : second.mnemonic? with
    | none => exact absurd htext (text_ne_of_mnemonic hfirst hsecond)
    | some other =>
      rw [toList_text_of_some hfirst, toList_text_of_some hsecond] at hchars
      obtain ⟨-, hnumbers⟩ :=
        Text.append_cons_inj (mnemonic?_word hfirst).1 (mnemonic?_word hsecond).1 hchars
      have hbytes := List.append_cancel_right (List.append_cancel_left hnumbers)
      exact Text.Hexadecimal.byte_injective (String.toList_inj.mp hbytes)

end Opcode

/-! ## Values -/

/-- Two values of one kind that are shown alike are the same. -/
theorem Value.text_inj {kind : Kind} {first second : Value} (hfirst : first.kind? = some kind)
    (hsecond : second.kind? = some kind) (htext : first.text = second.text) : first = second := by
  cases first with
  | number value =>
    cases second with
    | number other =>
      simp only [text, Nat.toString_eq_ofList_toDigits] at htext
      rw [Text.toDigits_injective (by decide) (by decide) (String.ofList_injective htext)]
    | access _ | opcode _ | attributeKind _ | nothing => cases hfirst; cases hsecond
  | access flags =>
    cases second with
    | access others => rw [Access.text_injective htext]
    | number _ | opcode _ | attributeKind _ | nothing => cases hfirst; cases hsecond
  | opcode byte =>
    cases second with
    | opcode other => rw [Opcode.text_injective htext]
    | number _ | access _ | attributeKind _ | nothing => cases hfirst; cases hsecond
  | attributeKind kind =>
    cases second with
    | attributeKind other => rw [Attribute.Kind.name_injective htext]
    | number _ | access _ | opcode _ | nothing => cases hfirst; cases hsecond
  | nothing => cases hfirst

/-! ## Mismatches -/

namespace Layout

variable {layout : Layout} {bytes : Bytes} {made : Check}

/-- A reading that ends with a mismatch has held two different values of one kind against each
other, of which the first is that of the layout. -/
theorem of_read_eq_mismatch (hresult : (layout.read bytes).result = .error (.mismatch made)) :
    made.expected = layout.expected made.field ∧ made.actual.kind? = some made.field.kind ∧
      made.expected ≠ made.actual := by
  obtain ⟨hlisted, hasked⟩ := layout.failsOnly_read_reports bytes _ hresult
  obtain ⟨hexpected, hkind⟩ := hasked made rfl
  cases hlisted with
  | mismatch hdiffer hthere => exact ⟨hexpected, hkind.resolve_right hthere, hdiffer⟩

/-- The value of a mismatch is the one that stands in the file. -/
theorem actual_of_read_eq_mismatch {found : FoundClass} {trailing : Bytes}
    (hwritten : found.Written bytes)
    (hresult : (layout.read (bytes ++ trailing)).result = .error (.mismatch made)) :
    made.actual = found.actual made.field := by
  by_cases hheader : found.header = layout.header
  · rw [result_read_of_written trailing hwritten hheader, Check.verdict] at hresult
    cases hfailed : Check.firstFailure? (Field.all.map (layout.check found)) with
    | none =>
      rw [hfailed] at hresult
      cases hresult
    | some failed =>
      rw [hfailed] at hresult
      cases hresult
      obtain ⟨field, -, rfl⟩ := List.mem_map.mp (List.mem_of_find?_eq_some hfailed)
      rfl
  · -- another header is the only thing that is reported
    obtain ⟨constants, method, attributes, -, -, -, rfl⟩ := hwritten.spelled
    simp only [List.append_assoc] at hresult
    rw [read, Reader.result_expectHeader_bind_of_ne hwritten.header_length hheader] at hresult
    cases hresult

/-- A written class with the right header that differs from the layout ends with a mismatch. -/
theorem exists_mismatch_of_ne {found : FoundClass} (trailing : Bytes)
    (hwritten : found.Written bytes) (hheader : found.header = layout.header) {field : Field}
    (hdiffer : layout.expected field ≠ found.actual field) :
    ∃ made, (layout.read (bytes ++ trailing)).result = .error (.mismatch made) := by
  rw [result_read_of_written trailing hwritten hheader, Check.verdict]
  cases hfailed : Check.firstFailure? (Field.all.map (layout.check found)) with
  | some failed => exact ⟨failed, rfl⟩
  | none =>
    have hlisted : layout.check found field ∈ Field.all.map (layout.check found) :=
      List.mem_map_of_mem (Field.mem_all field)
    exact absurd (Check.firstFailure?_eq_none_iff.mp hfailed _ hlisted) hdiffer

/-- **The texts of a mismatch tell its values apart.**  A reading that ends with a mismatch has
found another value than the layout fixes for the field, of the same kind, and the two have
different texts.  Two readings, be it of different files or by different layouts, that end with
mismatches in fields of one name but with different values show these values by different texts.
Where the file is spelled out like a class, the value is the one that stands there, and there is a
mismatch as soon as the file has the right header and any field differs. -/
theorem mismatch_texts_tell_values_apart (layout : Layout) :
    (∀ bytes made, (layout.read bytes).result = .error (.mismatch made) →
      made.expected = layout.expected made.field ∧ made.actual.kind? = some made.field.kind ∧
        made.expected.text ≠ made.actual.text) ∧
    (∀ (other : Layout) bytes others made found,
      (layout.read bytes).result = .error (.mismatch made) →
      (other.read others).result = .error (.mismatch found) →
      made.field.name = found.field.name → made.actual ≠ found.actual →
      made.actual.text ≠ found.actual.text) ∧
    ∀ (found : FoundClass) bytes trailing, found.Written bytes →
      (∀ made, (layout.read (bytes ++ trailing)).result = .error (.mismatch made) →
        made.actual = found.actual made.field) ∧
      (found.header = layout.header → ∀ field, layout.expected field ≠ found.actual field →
        ∃ made, (layout.read (bytes ++ trailing)).result = .error (.mismatch made)) := by
  refine ⟨?_, ?_, fun found bytes trailing hwritten => ⟨fun made => ?_, fun hheader field => ?_⟩⟩
  · intro bytes made hresult
    obtain ⟨hexpected, hkind, hdiffer⟩ := of_read_eq_mismatch hresult
    have hsame : made.expected.kind? = some made.field.kind := by
      rw [hexpected, layout.kind?_expected]
    exact ⟨hexpected, hkind, fun htext => hdiffer (Value.text_inj hsame hkind htext)⟩
  · intro other bytes others made found hmade hfound hname hdiffer htext
    obtain ⟨-, hkind, -⟩ := of_read_eq_mismatch hmade
    obtain ⟨-, hother, -⟩ := of_read_eq_mismatch hfound
    rw [← Field.name_injective hname] at hother
    exact hdiffer (Value.text_inj hkind hother htext)
  · exact actual_of_read_eq_mismatch hwritten
  · exact exists_mismatch_of_ne trailing hwritten hheader

end Layout

end ClassAudit
