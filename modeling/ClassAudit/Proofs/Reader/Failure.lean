import ClassAudit.Proofs.Reader.Lookahead
import ClassAudit.Proofs.Reader.Success

/-!
# When a reader fails, and what it has reported

`reader.Fails bytes fault rest` says that reading `bytes` ends with `fault` and leaves `rest`.  It
is the counterpart of `Gives`: every reading ends in one of the two ways (`gives_or_fails`), and
there is the same kind of equivalence for every way to build a reader.

The second part follows a counted repetition through its items.  An item that reports one event for
what it gives and none when it fails (`ReportsOnly`) makes the whole log of the repetition known:

* `repeatedFrom_append`: behind the written forms of some items, the repetition goes on as one with
  fewer items, and has reported the items in front;
* `repeatedFrom_of_sequence` and `repeatedFrom_of_fails`: hence how it ends where all items are
  there, and where one of them fails;
* `exists_longest_sequence`: every input falls under one of these two.
-/

namespace ClassAudit.Reader

variable {α β : Type}

/-- Reading the bytes stops with a fault and leaves the rest. -/
def Fails (reader : Reader α) (bytes : Bytes) (fault : Fault) (rest : Bytes) : Prop :=
  (reader bytes).result = .error fault ∧ (reader bytes).rest = rest

theorem gives_or_fails (reader : Reader α) (bytes : Bytes) :
    (∃ value rest, reader.Gives bytes value rest) ∨ ∃ fault rest, reader.Fails bytes fault rest := by
  cases hresult : (reader bytes).result with
  | ok value => exact .inl ⟨value, _, hresult, rfl⟩
  | error fault => exact .inr ⟨fault, _, hresult, rfl⟩

/-! ## Steps and their composition -/

@[simp] theorem not_fails_pure {found : α} {bytes rest : Bytes} {fault : Fault} :
    ¬ (pure found : Reader α).Fails bytes fault rest := by
  simp [Fails, pure_eq, Reader.pure]

@[simp] theorem fails_fail_iff {found fault : Fault} {bytes rest : Bytes} :
    (fail found : Reader α).Fails bytes fault rest ↔ fault = found ∧ bytes = rest := by
  simp [Fails, fail, eq_comm]

/-- A reader of two steps fails where the first one does, or behind it where the second one does. -/
theorem fails_bind_iff {first : Reader α} {next : α → Reader β} {bytes rest : Bytes}
    {fault : Fault} :
    (first >>= next).Fails bytes fault rest ↔
      first.Fails bytes fault rest ∨
        ∃ found middle, first.Gives bytes found middle ∧ (next found).Fails middle fault rest := by
  simp only [Fails, Gives, bind_eq, Reader.bind]
  cases first bytes with
  | mk result middle log =>
    cases result with
    | error fault => simp
    | ok found =>
      refine ⟨fun hlater => .inr ⟨found, middle, ⟨rfl, rfl⟩, hlater⟩, fun hstep => ?_⟩
      rcases hstep with hfirst | ⟨_, _, ⟨hfound, rfl⟩, hlater⟩
      · exact absurd hfirst.1 (by simp)
      · cases hfound
        exact hlater

theorem fails_take_iff {extent : Extent} {size : Nat} {bytes rest : Bytes} {fault : Fault} :
    (take extent size).Fails bytes fault rest ↔
      bytes.length < size ∧ fault = .endOfInput extent ∧ rest = [] := by
  by_cases henough : size ≤ bytes.length
  · rw [Fails, take_of_le extent henough]
    have hlong : ¬ bytes.length < size := by omega
    simp [hlong]
  · have hshort : bytes.length < size := by omega
    rw [Fails, take_of_lt extent hshort]
    simp [hshort, eq_comm]

/-- A number fails only for want of bytes, and then nothing is left. -/
theorem fails_uint8_iff {bytes rest : Bytes} {fault : Fault} :
    uint8.Fails bytes fault rest ↔ bytes = [] ∧ fault = .endOfInput .fixed ∧ rest = [] := by
  simp only [uint8, fails_bind_iff, fails_take_iff, not_fails_pure, and_false, exists_false,
    or_false, Nat.lt_one_iff, List.length_eq_zero_iff]

theorem fails_uint16_iff {bytes rest : Bytes} {fault : Fault} :
    uint16.Fails bytes fault rest ↔
      bytes.length < 2 ∧ fault = .endOfInput .fixed ∧ rest = [] := by
  simp only [uint16, fails_bind_iff, fails_take_iff, not_fails_pure, and_false, exists_false,
    or_false]

/-- A reading that ends with the bytes leaves none. -/
theorem Built.rest_of_starved {reader : Reader α} (hbuilt : reader.Built) {bytes : Bytes}
    (hstarved : (reader bytes).Starved) : (reader bytes).rest = [] := by
  induction hbuilt generalizing bytes with
  | pure value =>
    obtain ⟨extent, hresult⟩ := hstarved
    cases hresult
  | fail hfault =>
    obtain ⟨extent, hresult⟩ := hstarved
    exact absurd (Except.error.inj hresult) (hfault extent)
  | report event _ ih => exact ih hstarved
  | @take extent size next _ ih =>
    by_cases henough : size ≤ bytes.length
    · rw [take_bind_of_le extent next henough] at hstarved ⊢
      exact ih _ hstarved
    · rw [take_bind_of_lt extent next (by omega)]

/-! ## Whole outcomes -/

theorem bind_apply_of_ok {first : Reader α} {bytes middle : Bytes} {found : α} {log : List Event}
    (hfirst : first bytes = ⟨.ok found, middle, log⟩) (next : α → Reader β) :
    (first >>= next) bytes =
      ⟨(next found middle).result, (next found middle).rest, log ++ (next found middle).log⟩ := by
  simp only [bind_eq, Reader.bind, hfirst]

theorem bind_apply_of_error {first : Reader α} {bytes middle : Bytes} {fault : Fault}
    {log : List Event} (hfirst : first bytes = ⟨.error fault, middle, log⟩)
    (next : α → Reader β) : (first >>= next) bytes = ⟨.error fault, middle, log⟩ := by
  simp only [bind_eq, Reader.bind, hfirst]

/-- A reading that succeeds is known but for what it reports. -/
theorem Gives.outcome_eq {reader : Reader α} {bytes rest : Bytes} {value : α}
    (hgives : reader.Gives bytes value rest) :
    reader bytes = ⟨.ok value, rest, (reader bytes).log⟩ := by
  obtain ⟨hresult, hrest⟩ := hgives
  rw [← hresult, ← hrest]

/-- And so is one that fails. -/
theorem Fails.outcome_eq {reader : Reader α} {bytes rest : Bytes} {fault : Fault}
    (hfails : reader.Fails bytes fault rest) :
    reader bytes = ⟨.error fault, rest, (reader bytes).log⟩ := by
  obtain ⟨hresult, hrest⟩ := hfails
  rw [← hresult, ← hrest]

/-- A reader reports nothing. -/
def Silent (reader : Reader α) : Prop := ∀ bytes, (reader bytes).log = []

theorem silent_pure (value : α) : (pure value : Reader α).Silent := fun _ => rfl

theorem silent_fail (fault : Fault) : (fail fault : Reader α).Silent := fun _ => rfl

theorem silent_take (extent : Extent) (size : Nat) : (take extent size).Silent := by
  intro bytes
  by_cases henough : size ≤ bytes.length
  · rw [take_of_le extent henough]
  · rw [take_of_lt extent (by omega)]

theorem Silent.bind {first : Reader α} {next : α → Reader β} (hfirst : first.Silent)
    (hnext : ∀ value, (next value).Silent) : (first >>= next).Silent := by
  intro bytes
  have hlog : (first bytes).log = [] := hfirst bytes
  cases houtcome : first bytes with
  | mk result middle log =>
    rw [houtcome] at hlog
    subst hlog
    cases result with
    | error fault => rw [bind_apply_of_error houtcome]
    | ok found =>
      rw [bind_apply_of_ok houtcome]
      exact hnext found middle

theorem silent_uint8 : uint8.Silent := (silent_take .fixed 1).bind fun _ => silent_pure _

theorem silent_uint16 : uint16.Silent := (silent_take .fixed 2).bind fun _ => silent_pure _

/-- A reader reports one event for the value that it gives, and none when it fails. -/
def ReportsOnly (reader : Reader α) (event : α → Event) : Prop :=
  ∀ bytes, (reader bytes).log =
    match (reader bytes).result with
    | .ok value => [event value]
    | .error _ => []

/-- To read silently and to report what was read is to report only that. -/
theorem Silent.reportsOnly {reader : Reader α} (hsilent : reader.Silent) (event : α → Event) :
    (do let value ← reader; report (event value); return value : Reader α).ReportsOnly event := by
  intro bytes
  have hlog : (reader bytes).log = [] := hsilent bytes
  cases houtcome : reader bytes with
  | mk result middle log =>
    rw [houtcome] at hlog
    subst hlog
    cases result with
    | error fault => rw [bind_apply_of_error houtcome]
    | ok found =>
      rw [bind_apply_of_ok houtcome]
      rfl

theorem ReportsOnly.apply_of_fails {reader : Reader α} {event : α → Event}
    (hreports : reader.ReportsOnly event) {bytes rest : Bytes} {fault : Fault}
    (hfails : reader.Fails bytes fault rest) : reader bytes = ⟨.error fault, rest, []⟩ := by
  have hlog : (reader bytes).log = [] := by
    rw [hreports bytes, hfails.1]
  rw [hfails.outcome_eq, hlog]

theorem ReportsOnly.apply_of_form {reader : Reader α} {event : α → Event}
    (hreports : reader.ReportsOnly event) {Form : α → Bytes → Prop} (hreads : reader.Reads Form)
    {value : α} {front : Bytes} (hform : Form value front) (rest : Bytes) :
    reader (front ++ rest) = ⟨.ok value, rest, [event value]⟩ := by
  have hgives : reader.Gives (front ++ rest) value rest :=
    (hreads _ _ _).mpr ⟨front, rfl, hform⟩
  have hlog : (reader (front ++ rest)).log = [event value] := by
    rw [hreports (front ++ rest), hgives.1]
  rw [hgives.outcome_eq, hlog]

/-! ## The course of a repetition -/

section Repetition

variable {item : Nat → Reader α} {Form : α → Bytes → Prop} {event : Nat → α → Event}
  (hreads : ∀ index, (item index).Reads Form)
  (hreports : ∀ index, (item index).ReportsOnly (event index))
include hreads hreports

/-- Behind the written forms of some items a repetition goes on with the items that are missing,
and the items in front are reported, each with its number. -/
theorem repeatedFrom_append {values : List α} {front : Bytes}
    (hfront : Written.Sequence Form values front) (index count : Nat) (later : Bytes) :
    repeatedFrom index (values.length + count) item (front ++ later) =
      let remaining := repeatedFrom (index + values.length) count item later
      ⟨remaining.result.map (values ++ ·), remaining.rest,
        (values.mapIdx fun offset value => event (index + offset) value) ++ remaining.log⟩ := by
  induction hfront generalizing index with
  | nil =>
    simp only [List.length_nil, Nat.zero_add, List.nil_append, Nat.add_zero, List.mapIdx_nil]
    cases repeatedFrom index count item later with
    | mk result rest log => cases result <;> rfl
  | @cons value values front back hform _ ih =>
    have hfirst : item index (front ++ (back ++ later)) =
        ⟨.ok value, back ++ later, [event index value]⟩ :=
      (hreports index).apply_of_form (hreads index) hform (back ++ later)
    have hcount : (value :: values).length + count = (values.length + count) + 1 := by
      simp only [List.length_cons]
      omega
    have hnumber : index + 1 + values.length = index + (value :: values).length := by
      simp only [List.length_cons]
      omega
    have hevents : (value :: values).mapIdx (fun offset value => event (index + offset) value) =
        event index value ::
          values.mapIdx (fun offset value => event (index + 1 + offset) value) := by
      rw [List.mapIdx_cons]
      simp only [Nat.add_zero, Nat.add_assoc, Nat.add_comm 1]
    rw [hcount, repeatedFrom_succ, List.append_assoc, bind_apply_of_ok hfirst, hevents, ← hnumber]
    have hlater := ih (index + 1)
    cases hremaining : repeatedFrom (index + 1 + values.length) count item later with
    | mk result rest log =>
      rw [hremaining] at hlater
      cases result with
      | error fault => simp [bind_apply_of_error hlater, Except.map]
      | ok more => simp [bind_apply_of_ok hlater, Except.map, pure_eq, Reader.pure]

/-- Where all items are there, a repetition gives and reports them. -/
theorem repeatedFrom_of_sequence {values : List α} {front : Bytes}
    (hfront : Written.Sequence Form values front) (index : Nat) (later : Bytes) :
    repeatedFrom index values.length item (front ++ later) =
      ⟨.ok values, later, values.mapIdx fun offset value => event (index + offset) value⟩ := by
  have happend := repeatedFrom_append hreads hreports hfront index 0 later
  rw [Nat.add_zero] at happend
  rw [happend, repeatedFrom_zero]
  simp [pure_eq, Reader.pure, Except.map]

/-- Where an item fails, a repetition fails in the same way, and reports the items in front. -/
theorem repeatedFrom_of_fails {values : List α} {front later rest : Bytes} {fault : Fault}
    (hfront : Written.Sequence Form values front) (index : Nat) {count : Nat}
    (hmissing : values.length < count)
    (hfails : (item (index + values.length)).Fails later fault rest) :
    repeatedFrom index count item (front ++ later) =
      ⟨.error fault, rest, values.mapIdx fun offset value => event (index + offset) value⟩ := by
  obtain ⟨missing, rfl⟩ : ∃ missing, count = values.length + (missing + 1) :=
    ⟨count - values.length - 1, by omega⟩
  have hitem := (hreports (index + values.length)).apply_of_fails hfails
  rw [repeatedFrom_append hreads hreports hfront, repeatedFrom_succ, bind_apply_of_error hitem]
  simp [Except.map]

end Repetition

/-- Of the sequences with at most a number of members that stand in front of the bytes there is one
that cannot be made longer. -/
theorem exists_longest_sequence (Form : α → Bytes → Prop) (count : Nat) (bytes : Bytes) :
    ∃ values front later, bytes = front ++ later ∧ Written.Sequence Form values front ∧
      values.length ≤ count ∧
      (values.length < count → ∀ value form rest, Form value form → later ≠ form ++ rest) := by
  induction count generalizing bytes with
  | zero => exact ⟨[], [], bytes, rfl, .nil, Nat.le_refl 0, by simp⟩
  | succ count ih =>
    by_cases hfirst : ∃ value form rest, Form value form ∧ bytes = form ++ rest
    · obtain ⟨value, form, rest, hform, rfl⟩ := hfirst
      obtain ⟨values, front, later, rfl, hfront, hfew, hlongest⟩ := ih rest
      refine ⟨value :: values, form ++ front, later, by simp, .cons hform hfront, ?_, ?_⟩
      · simpa using hfew
      · intro hfewer
        exact hlongest (by simpa using hfewer)
    · refine ⟨[], [], bytes, rfl, .nil, Nat.zero_le _, ?_⟩
      intro _ value form rest hform hbytes
      exact hfirst ⟨value, form, rest, hform, hbytes⟩

end ClassAudit.Reader
