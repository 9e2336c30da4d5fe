import ClassAudit.Proofs.Reader.Failure
import Mathlib.Data.List.Forall2

/-!
# Sessions that have come to the end of their bytes

A session only moves forward: what a step leaves is the end of what was there before it, whatever
the result (`rest_take_suffix`).  A step that ends with the bytes leaves none
(`rest_take_of_starved`), and from then on the session stays where it is: two kinds of steps are
content with no bytes at all, a pool that announces no entries and a sequence of no attributes, and
every other step ends with the bytes again (`takeAll_of_exhausted`).

## Strategy

All of this is known of one step, because its reader is made from `take` (`Built`).  What a reader
does with no bytes is decided by the first thing that it takes, so `starved_bind` carries the end of
the bytes from the first part of a reader to the whole of it.  Runs are inductions over their steps.
-/

namespace ClassAudit

variable {α β : Type}

namespace Reader

/-! ## Readers without bytes -/

theorem starved_bind {first : Reader α} {next : α → Reader β} {bytes : Bytes}
    (hstarved : (first bytes).Starved) : ((first >>= next) bytes).Starved := by
  obtain ⟨extent, hresult⟩ := hstarved
  have hfails : first.Fails bytes (.endOfInput extent) (first bytes).rest := ⟨hresult, rfl⟩
  exact ⟨extent, by rw [bind_apply_of_error hfails.outcome_eq]⟩

theorem starved_map {reader : Reader α} {view : α → β} {bytes : Bytes}
    (hstarved : (reader bytes).Starved) : ((view <$> reader) bytes).Starved := by
  rw [map_eq_pure_bind]
  exact starved_bind hstarved

theorem starved_take_nil (extent : Extent) {size : Nat} (hpositive : 0 < size) :
    (take extent size []).Starved :=
  ⟨extent, by rw [take_of_lt extent hpositive]⟩

theorem starved_uint8_nil : (uint8 []).Starved :=
  starved_bind (starved_take_nil .fixed (by omega))

theorem starved_uint16_nil : (uint16 []).Starved :=
  starved_bind (starved_take_nil .fixed (by omega))

theorem starved_uint32_nil : (uint32 []).Starved :=
  starved_bind (starved_take_nil .fixed (by omega))

/-- A sequence that is not empty begins with its first item. -/
theorem starved_repeatedFrom {item : Nat → Reader α} {index count : Nat} {bytes : Bytes}
    (hpositive : 0 < count) (hitem : (item index bytes).Starved) :
    (repeatedFrom index count item bytes).Starved := by
  obtain ⟨fewer, rfl⟩ : ∃ fewer, count = fewer + 1 := ⟨count - 1, by omega⟩
  rw [repeatedFrom_succ]
  exact starved_bind hitem

/-- What a reader leaves is the end of what it was given. -/
theorem Built.rest_suffix {reader : Reader α} (hbuilt : reader.Built) (bytes : Bytes) :
    (reader bytes).rest <:+ bytes := by
  by_cases hstarved : (reader bytes).Starved
  · rw [hbuilt.rest_of_starved hstarved]
    exact List.nil_suffix
  · obtain ⟨used, hsplit, -⟩ := hbuilt.repeats bytes hstarved
    exact ⟨used, hsplit.symm⟩

end Reader

open Reader

namespace Step

/-! ## Steps without bytes -/

/-- What a step reads where there are no bytes, if it needs none: a pool without entries, or no
attributes. -/
def emptyItem? : Step → Option Item
  | .pool count => if count ≤ 1 then some (.pool .empty) else none
  | .attributes count _ => if count = 0 then some (.attributes []) else none
  | _ => none

/-- The result of a step where there are no bytes: the empty item if the step is content with it,
and the end of the bytes if it is not. -/
def EndsEmpty (step : Step) (result : Except Fault Item) : Prop :=
  match step.emptyItem? with
  | some item => result = .ok item
  | none => ∃ extent, result = .error (.endOfInput extent)

theorem starved_readEntry_nil (index : Nat) : (Constant.readEntry index []).Starved :=
  starved_bind (starved_bind starved_uint8_nil)

theorem starved_readAttribute_nil (constants : Pool) : (Attribute.read constants []).Starved :=
  starved_bind starved_uint16_nil

theorem starved_readMethod_nil (constants : Pool) : (Method.read constants []).Starved :=
  starved_bind (starved_bind starved_uint16_nil)

theorem endsEmpty_reader_nil (step : Step) : step.EndsEmpty (step.reader []).result := by
  match step with
  | .header => exact starved_map (starved_take_nil .fixed (by omega))
  | .uint8 => exact starved_map starved_uint8_nil
  | .uint16 => exact starved_map starved_uint16_nil
  | .uint32 => exact starved_map starved_uint32_nil
  | .method constants => exact starved_map (starved_readMethod_nil constants)
  | .attribute constants => exact starved_map (starved_readAttribute_nil constants)
  | .pool count =>
    by_cases hnone : count ≤ 1
    · have hsize : count.toNat - 1 = 0 := by
        have hone : count.toNat ≤ 1 := UInt16.le_iff_toNat_le.mp hnone
        omega
      simp only [EndsEmpty, emptyItem?, if_pos hnone, reader, Pool.read, hsize]
      rfl
    · have hsize : 0 < count.toNat - 1 := by
        have hone : 1 < count.toNat := UInt16.lt_iff_toNat_lt.mp (UInt16.not_le.mp hnone)
        omega
      simp only [EndsEmpty, emptyItem?, if_neg hnone]
      exact starved_map (starved_bind (starved_repeatedFrom hsize (starved_readEntry_nil 1)))
  | .attributes count constants =>
    by_cases hnone : count = 0
    · subst hnone
      rfl
    · have hsize : 0 < count.toNat := by
        have hzero : count.toNat ≠ 0 := fun hzero => hnone (UInt16.toNat_inj.mp hzero)
        omega
      simp only [EndsEmpty, emptyItem?, if_neg hnone]
      exact starved_map (starved_repeatedFrom hsize (starved_readAttribute_nil constants))

end Step

namespace Session

/-! ## One step -/

theorem rest_take_suffix (session : Session) (step : Step) :
    (session.take step).2.rest <:+ session.rest :=
  step.built_reader.rest_suffix session.rest

theorem rest_take_of_starved {session : Session} {step : Step} {extent : Extent}
    (hend : (session.take step).1 = .error (.endOfInput extent)) :
    (session.take step).2.rest = [] :=
  step.built_reader.rest_of_starved ⟨extent, hend⟩

/-- A session without bytes stays without bytes, and its next step ends as it does on none. -/
theorem take_of_exhausted {session : Session} (hnone : session.rest = []) (step : Step) :
    step.EndsEmpty (session.take step).1 ∧ (session.take step).2.rest = [] := by
  constructor
  · show step.EndsEmpty (step.reader session.rest).result
    rw [hnone]
    exact step.endsEmpty_reader_nil
  · have hsuffix : (session.take step).2.rest <:+ session.rest := session.rest_take_suffix step
    rw [hnone] at hsuffix
    exact List.suffix_nil.mp hsuffix

/-! ## Runs -/

/-- A run only moves forward. -/
theorem rest_takeAll_suffix (session : Session) (steps : List Step) :
    (session.takeAll steps).2.rest <:+ session.rest := by
  induction steps generalizing session with
  | nil => exact List.suffix_refl session.rest
  | cons step later ih =>
    have hlater : ((session.take step).2.takeAll later).2.rest <:+ (session.take step).2.rest :=
      ih (session.take step).2
    exact hlater.trans (session.rest_take_suffix step)

/-- A run without bytes ends at every step as that step does on none. -/
theorem takeAll_of_exhausted {session : Session} (hnone : session.rest = []) (steps : List Step) :
    List.Forall₂ Step.EndsEmpty steps (session.takeAll steps).1 := by
  induction steps generalizing session with
  | nil => exact .nil
  | cons step later ih =>
    obtain ⟨hresult, hstill⟩ := take_of_exhausted hnone step
    exact .cons hresult (ih hstill)

/-- **A session never goes back and never recovers from the end of its bytes.**  Whatever steps came
before, with whatever results, a further step leaves an end of the bytes that it finds.  If it
reports the end of the bytes, none are left, and in every continuation each step ends as it does
without bytes: the pools of the counts zero and one and a sequence of no attributes are read as
empty, and every other step reports the end of the bytes again. -/
theorem never_rereads_never_recovers (bytes : Bytes) (before : List Step) (step : Step) :
    let session := ((start bytes).takeAll before).2
    let (result, next) := session.take step
    next.rest <:+ session.rest ∧ session.rest <:+ bytes ∧
      ((∃ extent, result = .error (.endOfInput extent)) →
        next.rest = [] ∧
          ∀ later, List.Forall₂ Step.EndsEmpty later (next.takeAll later).1) := by
  intro session
  refine ⟨session.rest_take_suffix step, (start bytes).rest_takeAll_suffix before, ?_⟩
  rintro ⟨extent, hend⟩
  have hnone : (session.take step).2.rest = [] := rest_take_of_starved hend
  exact ⟨hnone, fun later => takeAll_of_exhausted hnone later⟩

end Session

end ClassAudit
