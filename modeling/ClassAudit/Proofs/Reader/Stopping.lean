import ClassAudit.Proofs.Reader.Failure

/-!
# Faults in the bytes that are there

A reading can fail because the bytes end, and it can fail because of what they say.
`reader.Stops bytes fault rest` is a failure of the second kind: the fault is not the end of the
bytes, and `rest` begins where the reader has stopped.

Taking bytes never stops in this sense, so a reader that takes a number first stops exactly where
its next step does, behind that number (`stops_uint16_bind_iff`, `stops_uint32_bind_iff`).  A counted
sequence stops where one item does, behind the written forms of fewer items than there are to be
(`stops_repeated_iff`).
-/

namespace ClassAudit.Reader

variable {α β : Type}

/-- Reading the bytes fails, for another reason than that they end, and leaves the rest. -/
def Stops (reader : Reader α) (bytes : Bytes) (fault : Fault) (rest : Bytes) : Prop :=
  reader.Fails bytes fault rest ∧ ∀ extent, fault ≠ .endOfInput extent

variable {bytes rest : Bytes} {fault : Fault}

/-! ## Steps and their composition -/

@[simp] theorem not_stops_pure {value : α} : ¬ (pure value : Reader α).Stops bytes fault rest :=
  fun hstops => not_fails_pure hstops.1

@[simp] theorem not_stops_report {event : Event} : ¬ (report event).Stops bytes fault rest := by
  simp [Stops, Fails, report]

@[simp] theorem not_stops_take {extent : Extent} {size : Nat} :
    ¬ (take extent size).Stops bytes fault rest := by
  rintro ⟨hfails, hreason⟩
  obtain ⟨-, hend, -⟩ := fails_take_iff.mp hfails
  exact hreason extent hend

theorem stops_fail_iff {found : Fault} (hreason : ∀ extent, found ≠ .endOfInput extent) :
    (fail found : Reader α).Stops bytes fault rest ↔ fault = found ∧ bytes = rest := by
  rw [Stops, fails_fail_iff]
  refine ⟨fun hstops => hstops.1, fun hfault => ⟨hfault, ?_⟩⟩
  rw [hfault.1]
  exact hreason

theorem stops_bind_iff {first : Reader α} {next : α → Reader β} :
    (first >>= next).Stops bytes fault rest ↔
      first.Stops bytes fault rest ∨
        ∃ found middle, first.Gives bytes found middle ∧ (next found).Stops middle fault rest := by
  simp only [Stops, fails_bind_iff]
  constructor
  · rintro ⟨hfirst | ⟨found, middle, hfound, hnext⟩, hreason⟩
    · exact .inl ⟨hfirst, hreason⟩
    · exact .inr ⟨found, middle, hfound, hnext, hreason⟩
  · rintro (⟨hfirst, hreason⟩ | ⟨found, middle, hfound, hnext, hreason⟩)
    · exact ⟨.inl hfirst, hreason⟩
    · exact ⟨.inr ⟨found, middle, hfound, hnext⟩, hreason⟩

/-- What is made of a value at the end plays no part. -/
theorem stops_bind_pure_iff {reader : Reader α} {make : α → β} :
    (reader >>= fun value => pure (make value)).Stops bytes fault rest ↔
      reader.Stops bytes fault rest := by
  simp only [stops_bind_iff, not_stops_pure, and_false, exists_false, or_false]

@[simp] theorem stops_map_iff {reader : Reader α} {view : α → β} :
    (view <$> reader).Stops bytes fault rest ↔ reader.Stops bytes fault rest := by
  rw [map_eq_pure_bind, stops_bind_pure_iff]

/-- An event in front plays no part. -/
theorem stops_report_bind_iff {event : Event} {next : Unit → Reader α} :
    (report event >>= next).Stops bytes fault rest ↔ (next ()).Stops bytes fault rest := by
  simp only [stops_bind_iff, not_stops_report, false_or, gives_report_iff]
  constructor
  · rintro ⟨_, _, rfl, hnext⟩
    exact hnext
  · intro hnext
    exact ⟨(), bytes, rfl, hnext⟩

/-- The event of a value that was read plays no part either. -/
theorem stops_bind_report_iff {reader : Reader α} {event : α → Event} :
    (do let value ← reader; report (event value); return value : Reader α).Stops bytes fault rest ↔
      reader.Stops bytes fault rest := by
  simp only [stops_bind_iff, not_stops_report, not_stops_pure, and_false, exists_false, or_false]

/-! ## Bytes and numbers -/

@[simp] theorem not_stops_uint16 : ¬ uint16.Stops bytes fault rest := by
  rw [uint16, stops_bind_pure_iff]
  exact not_stops_take

@[simp] theorem not_stops_uint32 : ¬ uint32.Stops bytes fault rest := by
  rw [uint32, stops_bind_pure_iff]
  exact not_stops_take

theorem stops_uint16_bind_iff {next : UInt16 → Reader α} :
    (uint16 >>= next).Stops bytes fault rest ↔
      ∃ number middle, bytes = Bytes.ofUInt16 number ++ middle ∧
        (next number).Stops middle fault rest := by
  simp only [stops_bind_iff, not_stops_uint16, false_or, gives_uint16_iff]

theorem stops_uint32_bind_iff {next : UInt32 → Reader α} :
    (uint32 >>= next).Stops bytes fault rest ↔
      ∃ number middle, bytes = Bytes.ofUInt32 number ++ middle ∧
        (next number).Stops middle fault rest := by
  simp only [stops_bind_iff, not_stops_uint32, false_or, gives_uint32_iff]

theorem stops_take_bind_iff {extent : Extent} {size : Nat} {next : Bytes → Reader α} :
    (take extent size >>= next).Stops bytes fault rest ↔
      ∃ taken middle, taken.length = size ∧ bytes = taken ++ middle ∧
        (next taken).Stops middle fault rest := by
  simp only [stops_bind_iff, not_stops_take, false_or, gives_take_iff, and_assoc]

/-! ## Repetition -/

/-- A counted sequence stops where one of its items does, behind the written forms of those before
it. -/
theorem stops_repeated_iff {item : Reader α} {Form : α → Bytes → Prop} (hreads : item.Reads Form)
    {count : Nat} :
    (repeated count item).Stops bytes fault rest ↔
      ∃ values front later, values.length < count ∧ Written.Sequence Form values front ∧
        bytes = front ++ later ∧ item.Stops later fault rest := by
  induction count generalizing bytes with
  | zero => simp
  | succ count ih =>
    rw [repeated_succ, stops_bind_iff]
    constructor
    · rintro (hfirst | ⟨value, middle, hvalue, hlater⟩)
      · exact ⟨[], [], bytes, by simp, .nil, rfl, hfirst⟩
      · obtain ⟨form, rfl, hform⟩ := (hreads _ _ _).mp hvalue
        rw [stops_bind_pure_iff, ih] at hlater
        obtain ⟨values, front, later, hfewer, hfront, rfl, hstops⟩ := hlater
        refine ⟨value :: values, form ++ front, later, ?_, .cons hform hfront, ?_, hstops⟩
        · simpa using hfewer
        · rw [List.append_assoc]
    · rintro ⟨values, front, later, hfewer, hfront, rfl, hstops⟩
      cases hfront with
      | nil => exact .inl hstops
      | @cons value values form front hform hfront =>
        refine .inr ⟨value, front ++ later, ?_, ?_⟩
        · exact (hreads _ _ _).mpr ⟨form, by rw [List.append_assoc], hform⟩
        · rw [stops_bind_pure_iff, ih]
          exact ⟨values, front, later, by simpa using hfewer, hfront, rfl, hstops⟩

end ClassAudit.Reader
