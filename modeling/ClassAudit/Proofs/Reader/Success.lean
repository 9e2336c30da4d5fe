import ClassAudit.Reader
import ClassAudit.Written.Sequence

/-!
# When a reader succeeds

`reader.Gives bytes value rest` says that reading `bytes` ends with `value` and leaves `rest`.
Every way to build a reader has an equivalence that says when the result succeeds
(`gives_bind_iff`, `gives_take_iff`, `gives_uint16_iff` and so on), so a reader that is written as
a sequence of steps is opened by rewriting with them.

`reader.Reads Form` says that a reader accepts exactly a grammar: it gives a value if and only if a
written form of the value stands in front of what it leaves.  Both directions are in the one
statement, and it holds for whatever bytes come behind.  `Reads.repeatedFrom` carries it from one
item to a counted sequence of them.
-/

namespace ClassAudit

/-! ## Writing undoes reading -/

namespace Bytes

theorem ofUInt16_value {bytes : Bytes} (htwo : bytes.length = 2) :
    ofUInt16 (.ofNat bytes.value) = bytes := by
  match bytes, htwo with
  | [upper, lower], _ =>
    have hupper := upper.toNat_lt
    have hlower := lower.toNat_lt
    simp only [ofUInt16, value, List.foldl_cons, List.foldl_nil, UInt16.toNat_ofNat',
      List.cons.injEq, and_true, ← UInt8.toNat_inj, UInt8.toNat_ofNat']
    omega

theorem ofUInt32_value {bytes : Bytes} (hfour : bytes.length = 4) :
    ofUInt32 (.ofNat bytes.value) = bytes := by
  match bytes, hfour with
  | [first, second, third, fourth], _ =>
    have hfirst := first.toNat_lt
    have hsecond := second.toNat_lt
    have hthird := third.toNat_lt
    have hfourth := fourth.toNat_lt
    simp only [ofUInt32, value, List.foldl_cons, List.foldl_nil, UInt32.toNat_ofNat',
      List.cons.injEq, and_true, ← UInt8.toNat_inj, UInt8.toNat_ofNat']
    omega

end Bytes

namespace Reader

variable {α β : Type}

/-- Reading the bytes ends with a value and leaves the rest. -/
def Gives (reader : Reader α) (bytes : Bytes) (value : α) (rest : Bytes) : Prop :=
  (reader bytes).result = .ok value ∧ (reader bytes).rest = rest

/-! ## Steps and their composition -/

@[simp] theorem gives_pure_iff {value found : α} {bytes rest : Bytes} :
    (pure found : Reader α).Gives bytes value rest ↔ found = value ∧ bytes = rest := by
  simp [Gives, pure_eq, Reader.pure]

@[simp] theorem not_gives_fail {fault : Fault} {bytes rest : Bytes} {value : α} :
    ¬ (fail fault : Reader α).Gives bytes value rest := by
  simp [Gives, fail]

@[simp] theorem gives_report_iff {event : Event} {bytes rest : Bytes} {value : Unit} :
    (report event).Gives bytes value rest ↔ bytes = rest := by
  simp [Gives, report]

@[simp] theorem gives_ofExcept_iff {computed : Except Fault α} {bytes rest : Bytes} {value : α} :
    (ofExcept computed).Gives bytes value rest ↔ computed = .ok value ∧ bytes = rest := by
  cases computed with
  | error fault => simp [ofExcept]
  | ok found => simp [ofExcept, ← pure_eq]

/-- A reader of two steps succeeds if both steps do, the second one where the first one stopped. -/
theorem gives_bind_iff {first : Reader α} {next : α → Reader β} {bytes rest : Bytes} {value : β} :
    (first >>= next).Gives bytes value rest ↔
      ∃ found middle, first.Gives bytes found middle ∧ (next found).Gives middle value rest := by
  simp only [Gives, bind_eq, Reader.bind]
  cases first bytes with
  | mk result middle log =>
    cases result with
    | error fault => simp
    | ok found =>
      refine ⟨fun hlater => ⟨found, middle, ⟨rfl, rfl⟩, hlater⟩, fun hboth => ?_⟩
      obtain ⟨_, _, ⟨hfound, rfl⟩, hlater⟩ := hboth
      cases hfound
      exact hlater

/-- Behind a step that succeeds, a reader ends as its next step does. -/
theorem Gives.result_bind {first : Reader α} {next : α → Reader β} {bytes middle : Bytes}
    {found : α} (hfirst : first.Gives bytes found middle) :
    ((first >>= next) bytes).result = (next found middle).result := by
  obtain ⟨hresult, rfl⟩ := hfirst
  simp only [bind_eq, Reader.bind]
  cases houtcome : first bytes with
  | mk result middle log =>
    rw [houtcome] at hresult
    subst hresult
    rfl

/-! ## Bytes and numbers -/

theorem gives_take_iff {extent : Extent} {size : Nat} {bytes rest taken : Bytes} :
    (take extent size).Gives bytes taken rest ↔ taken.length = size ∧ bytes = taken ++ rest := by
  refine ⟨fun hgives => ?_, fun hsplit => ?_⟩
  · by_cases henough : size ≤ bytes.length
    · rw [Gives, take_of_le extent henough] at hgives
      obtain ⟨htaken, rfl⟩ := hgives
      cases htaken
      exact ⟨List.length_take_of_le henough, (List.take_append_drop size bytes).symm⟩
    · rw [Gives, take_of_lt extent (by omega)] at hgives
      exact absurd hgives.1 (by simp)
  · obtain ⟨rfl, rfl⟩ := hsplit
    rw [Gives, take_append]
    exact ⟨rfl, rfl⟩

@[simp] theorem gives_uint8_iff {bytes rest : Bytes} {value : UInt8} :
    uint8.Gives bytes value rest ↔ bytes = value :: rest := by
  simp only [uint8, gives_bind_iff, gives_take_iff, gives_pure_iff]
  refine ⟨fun hgives => ?_, fun hbytes => ⟨[value], rest, ⟨rfl, hbytes⟩, by simp, rfl⟩⟩
  obtain ⟨taken, _, ⟨hone, rfl⟩, rfl, rfl⟩ := hgives
  obtain ⟨byte, rfl⟩ := List.length_eq_one_iff.mp hone
  simp

@[simp] theorem gives_uint16_iff {bytes rest : Bytes} {value : UInt16} :
    uint16.Gives bytes value rest ↔ bytes = Bytes.ofUInt16 value ++ rest := by
  simp only [uint16, gives_bind_iff, gives_take_iff, gives_pure_iff]
  refine ⟨fun hgives => ?_, fun hbytes => ⟨_, rest, ⟨rfl, hbytes⟩, by simp, rfl⟩⟩
  obtain ⟨taken, _, ⟨htwo, rfl⟩, rfl, rfl⟩ := hgives
  rw [Bytes.ofUInt16_value htwo]

@[simp] theorem gives_uint32_iff {bytes rest : Bytes} {value : UInt32} :
    uint32.Gives bytes value rest ↔ bytes = Bytes.ofUInt32 value ++ rest := by
  simp only [uint32, gives_bind_iff, gives_take_iff, gives_pure_iff]
  refine ⟨fun hgives => ?_, fun hbytes => ⟨_, rest, ⟨rfl, hbytes⟩, by simp, rfl⟩⟩
  obtain ⟨taken, _, ⟨hfour, rfl⟩, rfl, rfl⟩ := hgives
  rw [Bytes.ofUInt32_value hfour]

/-- All sixteen bits of a set of access flags are kept. -/
@[simp] theorem gives_access_iff {bytes rest : Bytes} {value : Access} :
    access.Gives bytes value rest ↔ bytes = Bytes.ofUInt16 value.bits ++ rest := by
  simp only [access, gives_bind_iff, gives_uint16_iff, gives_pure_iff]
  refine ⟨fun hgives => ?_, fun hbytes => ⟨value.bits, rest, hbytes, rfl, rfl⟩⟩
  obtain ⟨bits, _, rfl, rfl, rfl⟩ := hgives
  rfl

/-- One number and what is made of it. -/
theorem gives_of_uint16_iff {make : UInt16 → α} {bytes rest : Bytes} {value : α} :
    (do let number ← uint16; return make number : Reader α).Gives bytes value rest ↔
      ∃ number, value = make number ∧ bytes = Bytes.ofUInt16 number ++ rest := by
  simp only [gives_bind_iff, gives_uint16_iff, gives_pure_iff]
  refine ⟨fun hgives => ?_, fun hvalue => ?_⟩
  · obtain ⟨number, _, rfl, rfl, rfl⟩ := hgives
    exact ⟨number, rfl, rfl⟩
  · obtain ⟨number, rfl, rfl⟩ := hvalue
    exact ⟨number, rest, rfl, rfl, rfl⟩

/-- Two numbers and what is made of them. -/
theorem gives_of_two_uint16_iff {make : UInt16 → UInt16 → α} {bytes rest : Bytes} {value : α} :
    (do let first ← uint16; let second ← uint16; return make first second : Reader α).Gives
        bytes value rest ↔
      ∃ first second, value = make first second ∧
        bytes = Bytes.ofUInt16 first ++ (Bytes.ofUInt16 second ++ rest) := by
  simp only [gives_bind_iff, gives_uint16_iff, gives_pure_iff]
  refine ⟨fun hgives => ?_, fun hvalue => ?_⟩
  · obtain ⟨first, _, rfl, second, _, rfl, rfl, rfl⟩ := hgives
    exact ⟨first, second, rfl, rfl⟩
  · obtain ⟨first, second, rfl, rfl⟩ := hvalue
    exact ⟨first, _, rfl, second, rest, rfl, rfl, rfl⟩

/-- Bytes that are passed over, with a value that does not depend on them. -/
theorem gives_of_take_iff {extent : Extent} {size : Nat} {found value : α} {bytes rest : Bytes} :
    (do let _ ← take extent size; return found : Reader α).Gives bytes value rest ↔
      value = found ∧ ∃ passed : Bytes, passed.length = size ∧ bytes = passed ++ rest := by
  simp only [gives_bind_iff, gives_take_iff, gives_pure_iff]
  refine ⟨fun hgives => ?_, fun hvalue => ?_⟩
  · obtain ⟨passed, _, ⟨hsize, rfl⟩, rfl, rfl⟩ := hgives
    exact ⟨rfl, passed, hsize, rfl⟩
  · obtain ⟨rfl, passed, hsize, rfl⟩ := hvalue
    exact ⟨passed, rest, ⟨hsize, rfl⟩, rfl, rfl⟩

/-! ## Checks -/

@[simp] theorem gives_check_iff {made : Check} {bytes rest : Bytes} {value : Unit} :
    (check made).Gives bytes value rest ↔ made.expected = made.actual ∧ bytes = rest := by
  unfold check
  by_cases hpasses : made.expected = made.actual
  · simp [Check.passes, hpasses, ← pure_eq]
  · simp [Check.passes, hpasses]

@[simp] theorem gives_checkAll_iff {made : List Check} {bytes rest : Bytes} {value : Unit} :
    (checkAll made).Gives bytes value rest ↔
      Check.firstFailure? made = none ∧ bytes = rest := by
  unfold checkAll
  cases Check.firstFailure? made with
  | none => simp [← pure_eq]
  | some failed => simp

/-! ## Grammars -/

/-- A reader accepts exactly the written forms of a grammar: it gives a value if and only if one of
its forms stands in front of what is left. -/
def Reads (reader : Reader α) (Form : α → Bytes → Prop) : Prop :=
  ∀ bytes value rest, reader.Gives bytes value rest ↔
    ∃ front, bytes = front ++ rest ∧ Form value front

/-- A counted sequence of items is the written forms of as many items, one behind the other. -/
theorem Reads.repeatedFrom {item : Nat → Reader α} {Form : α → Bytes → Prop}
    (hitem : ∀ index, (item index).Reads Form) (index count : Nat) :
    (repeatedFrom index count item).Reads fun values bytes =>
      values.length = count ∧ Written.Sequence Form values bytes := by
  induction count generalizing index with
  | zero =>
    intro bytes values rest
    rw [repeatedFrom_zero, gives_pure_iff]
    refine ⟨fun hnone => ?_, fun hwritten => ?_⟩
    · obtain ⟨rfl, rfl⟩ := hnone
      exact ⟨[], rfl, rfl, .nil⟩
    · obtain ⟨front, rfl, hempty, hfront⟩ := hwritten
      obtain rfl := List.length_eq_zero_iff.mp hempty
      obtain rfl := Written.Sequence.nil_iff.mp hfront
      exact ⟨rfl, rfl⟩
  | succ count ih =>
    intro bytes values rest
    simp only [repeatedFrom_succ, gives_bind_iff, gives_pure_iff, hitem index _ _ _,
      ih (index + 1) _ _ _]
    refine ⟨fun hgives => ?_, fun hwritten => ?_⟩
    · obtain ⟨value, _, ⟨front, rfl, hfirst⟩, later, _, ⟨back, rfl, hcount, hlater⟩, rfl, rfl⟩ :=
        hgives
      exact ⟨front ++ back, by simp, by simp [hcount], .cons hfirst hlater⟩
    · obtain ⟨whole, rfl, hcount, hwhole⟩ := hwritten
      cases hwhole with
      | nil => simp at hcount
      | @cons value later front back hfirst hlater =>
        have hfewer : later.length = count := by simpa using hcount
        exact ⟨value, back ++ rest, ⟨front, by simp, hfirst⟩, later, rest,
          ⟨back, rfl, hfewer, hlater⟩, rfl, rfl⟩

theorem Reads.repeated {item : Reader α} {Form : α → Bytes → Prop} (hitem : item.Reads Form)
    (count : Nat) :
    (Reader.repeated count item).Reads fun values bytes =>
      values.length = count ∧ Written.Sequence Form values bytes :=
  Reads.repeatedFrom (fun _ => hitem) 0 count

end Reader

end ClassAudit
