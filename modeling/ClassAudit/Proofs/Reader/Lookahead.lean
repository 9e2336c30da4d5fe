import ClassAudit.Session
import Mathlib.Tactic.ByContra

/-!
# Reading without lookahead

A reading that ends otherwise than with the bytes depends on nothing but the bytes that it has
used, and every shorter beginning of these is too short.  `noLookahead_read_and_step` says so of
the reading of a class by any layout and of every step of a session.

## Strategy

Only `take` looks at the input.  `Built` is the class of readers made from `take`, from values,
from reported events and from faults other than the end of the input, put one behind the other.  It
is closed under `>>=` (`Built.bind`), hence under counted repetition, so the reader of every part
of a class belongs to it: this is shown definition by definition, in the order of the model.

The three laws are inductions on `Built`.  The one case with an argument is `take`: either there
are too few bytes, or the bytes taken are put in front of what the rest of the reader uses.
-/

namespace ClassAudit

variable {α β : Type}

/-- The reading ended because the bytes did. -/
def Outcome.Starved (outcome : Outcome α) : Prop :=
  ∃ extent, outcome.result = .error (.endOfInput extent)

namespace Reader

/-- A reader uses bytes only as it needs them. -/
structure NoLookahead (reader : Reader α) : Prop where
  /-- What a reading used stands in front of what it left.  With anything else behind it, the
  reading has the same result and the same events, and leaves just that. -/
  repeats : ∀ bytes, ¬ (reader bytes).Starved →
    ∃ used, bytes = used ++ (reader bytes).rest ∧
      ∀ later, reader (used ++ later) = { reader bytes with rest := later }
  /-- With fewer bytes than it used, the reading ends with the bytes, and its events are the first
  ones of the whole reading. -/
  cut_short : ∀ bytes, ¬ (reader bytes).Starved →
    ∀ size < bytes.length - (reader bytes).rest.length,
      (reader (bytes.take size)).Starved ∧ (reader (bytes.take size)).log <+: (reader bytes).log
  /-- A reading that ended with the bytes does so on each of their beginnings. -/
  starved_take : ∀ bytes, (reader bytes).Starved → ∀ size, (reader (bytes.take size)).Starved

/-- A reader made from steps that take bytes, report an event, or end. -/
inductive Built : Reader α → Prop where
  | pure (value : α) : Built (pure value)
  | fail {fault : Fault} (hfault : ∀ extent, fault ≠ .endOfInput extent) : Built (fail fault)
  | report (event : Event) {next : Reader α} (hnext : Built next) :
      Built (report event >>= fun _ => next)
  | take (extent : Extent) (size : Nat) {next : Bytes → Reader α}
      (hnext : ∀ taken, Built (next taken)) : Built (take extent size >>= next)

/-! ## What the steps do -/

theorem report_bind (event : Event) (next : Reader α) (bytes : Bytes) :
    (report event >>= fun _ => next) bytes =
      { next bytes with log := event :: (next bytes).log } := rfl

theorem take_bind_of_le (extent : Extent) {size : Nat} (next : Bytes → Reader α) {bytes : Bytes}
    (henough : size ≤ bytes.length) :
    (take extent size >>= next) bytes = next (bytes.take size) (bytes.drop size) := by
  simp [bind_eq, Reader.bind, take_of_le extent henough]

theorem take_bind_of_lt (extent : Extent) {size : Nat} (next : Bytes → Reader α) {bytes : Bytes}
    (hshort : bytes.length < size) :
    (take extent size >>= next) bytes = ⟨.error (.endOfInput extent), [], []⟩ := by
  simp [bind_eq, Reader.bind, take_of_lt extent hshort]

/-! ## The laws -/

theorem Built.repeats {reader : Reader α} (hbuilt : reader.Built) (bytes : Bytes)
    (hfed : ¬ (reader bytes).Starved) :
    ∃ used, bytes = used ++ (reader bytes).rest ∧
      ∀ later, reader (used ++ later) = { reader bytes with rest := later } := by
  induction hbuilt generalizing bytes with
  | pure value => exact ⟨[], rfl, fun _ => rfl⟩
  | fail hfault => exact ⟨[], rfl, fun _ => rfl⟩
  | report event _ ih =>
    obtain ⟨used, hsplit, hagain⟩ := ih bytes hfed
    refine ⟨used, hsplit, fun later => ?_⟩
    rw [report_bind, report_bind, hagain later]
  | @take extent size next _ ih =>
    by_cases henough : size ≤ bytes.length
    · rw [take_bind_of_le extent next henough] at hfed ⊢
      obtain ⟨used, hsplit, hagain⟩ := ih (bytes.take size) (bytes.drop size) hfed
      refine ⟨bytes.take size ++ used, ?_, fun later => ?_⟩
      · rw [List.append_assoc, ← hsplit, List.take_append_drop]
      · have htaken : (bytes.take size).length = size := List.length_take_of_le henough
        rw [List.append_assoc, take_bind_of_le extent next (by simp [htaken]),
          List.take_left' htaken, List.drop_left' htaken, hagain later]
    · rw [take_bind_of_lt extent next (by omega)] at hfed
      exact absurd ⟨extent, rfl⟩ hfed

theorem Built.cut_short {reader : Reader α} (hbuilt : reader.Built) (bytes : Bytes)
    (hfed : ¬ (reader bytes).Starved) (size : Nat)
    (hless : size < bytes.length - (reader bytes).rest.length) :
    (reader (bytes.take size)).Starved ∧
      (reader (bytes.take size)).log <+: (reader bytes).log := by
  induction hbuilt generalizing bytes size with
  | pure value =>
    change size < bytes.length - bytes.length at hless
    omega
  | fail hfault =>
    change size < bytes.length - bytes.length at hless
    omega
  | report event _ ih =>
    obtain ⟨hstarved, hlog⟩ := ih bytes hfed size hless
    exact ⟨hstarved, by simpa [report_bind] using hlog⟩
  | @take extent needed next _ ih =>
    by_cases henough : needed ≤ bytes.length
    · rw [take_bind_of_le extent next henough] at hfed hless ⊢
      by_cases hcut : needed ≤ size
      · -- the first step has its bytes, so a later one is cut short
        have hlater : size - needed <
            (bytes.drop needed).length -
              (next (bytes.take needed) (bytes.drop needed)).rest.length := by
          rw [List.length_drop]
          omega
        rw [take_bind_of_le extent next (by rw [List.length_take]; omega), List.take_take,
          Nat.min_eq_left hcut, List.drop_take]
        exact ih (bytes.take needed) (bytes.drop needed) hfed (size - needed) hlater
      · rw [take_bind_of_lt extent next (by rw [List.length_take]; omega)]
        exact ⟨⟨extent, rfl⟩, List.nil_prefix⟩
    · rw [take_bind_of_lt extent next (by omega)] at hfed
      exact absurd ⟨extent, rfl⟩ hfed

theorem Built.noLookahead {reader : Reader α} (hbuilt : reader.Built) : reader.NoLookahead where
  repeats := hbuilt.repeats
  cut_short := hbuilt.cut_short
  starved_take := by
    intro bytes hstarved size
    -- were the beginning enough, the whole would give what the beginning gives
    by_contra hfed
    obtain ⟨used, hsplit, hagain⟩ := hbuilt.repeats (bytes.take size) hfed
    have hwhole : bytes = used ++ ((reader (bytes.take size)).rest ++ bytes.drop size) := by
      rw [← List.append_assoc, ← hsplit, List.take_append_drop]
    rw [hwhole, hagain] at hstarved
    exact hfed hstarved

/-! ## Putting readers together -/

theorem Built.bind {first : Reader α} {next : α → Reader β} (hfirst : first.Built)
    (hnext : ∀ value, (next value).Built) : (first >>= next).Built := by
  induction hfirst with
  | pure value =>
    rw [pure_bind]
    exact hnext value
  | fail hfault => exact .fail hfault
  | report event _ ih =>
    rw [bind_assoc]
    exact .report event ih
  | take extent size _ ih =>
    rw [bind_assoc]
    exact .take extent size ih

theorem Built.map {reader : Reader α} (hbuilt : reader.Built) (view : α → β) :
    (view <$> reader).Built := by
  rw [map_eq_pure_bind]
  exact hbuilt.bind fun value => .pure (view value)

theorem built_take (extent : Extent) (size : Nat) : (take extent size).Built := by
  rw [← bind_pure (take extent size)]
  exact .take extent size .pure

theorem built_report (event : Event) : (report event).Built :=
  .report event (.pure ())

theorem built_uint8 : uint8.Built := .take .fixed 1 fun _ => .pure _

theorem built_uint16 : uint16.Built := .take .fixed 2 fun _ => .pure _

theorem built_uint32 : uint32.Built := .take .fixed 4 fun _ => .pure _

theorem built_access : access.Built := built_uint16.bind fun _ => .pure _

theorem built_header : header.Built := built_take .fixed 8

theorem built_check (made : Check) : (check made).Built := by
  unfold check
  split
  · exact .pure ()
  · exact .fail nofun

theorem built_checkAll (made : List Check) : (checkAll made).Built := by
  unfold checkAll
  split
  · exact .pure ()
  · exact .fail nofun

theorem Built.repeatedFrom {item : Nat → Reader α} (hitem : ∀ index, (item index).Built)
    (index count : Nat) : (Reader.repeatedFrom index count item).Built := by
  induction count generalizing index with
  | zero => exact .pure []
  | succ count ih =>
    rw [repeatedFrom_succ]
    exact (hitem index).bind fun _ => (ih (index + 1)).bind fun _ => .pure _

theorem Built.repeated {item : Reader α} (hitem : item.Built) (count : Nat) :
    (Reader.repeated count item).Built :=
  Built.repeatedFrom (fun _ => hitem) 0 count

end Reader

open Reader

/-! ## The parts of a class -/

theorem Constant.built_read : Constant.read.Built := by
  refine built_uint8.bind fun tag => ?_
  cases Kind.ofTag? tag with
  | none => exact .fail nofun
  | some kind =>
    cases kind with
    | utf8 =>
      refine built_uint16.bind fun length => (built_take _ _).bind fun payload => ?_
      cases Text.Payload.decode? payload with
      | none => exact .fail nofun
      | some text => exact .pure _
    | classEntry => exact built_uint16.bind fun _ => .pure _
    | methodRef => exact built_uint16.bind fun _ => built_uint16.bind fun _ => .pure _
    | nameAndType => exact built_uint16.bind fun _ => built_uint16.bind fun _ => .pure _

theorem Pool.built_read (count : UInt16) : (Pool.read count).Built := by
  have hentry (index : Nat) : (Constant.readEntry index).Built :=
    Constant.built_read.bind fun _ => (built_report _).bind fun _ => .pure _
  exact (Built.repeatedFrom hentry 1 _).bind fun _ => .pure _

/-- A look-up takes no bytes, so none can be missing. -/
theorem Pool.built_text (pool : Pool) (index : UInt16) : (ofExcept (pool.text index)).Built := by
  unfold Pool.text Pool.lookup
  split
  · exact .fail nofun
  · split
    · exact .fail nofun
    · exact .pure _

theorem Attribute.built_readWith {body : Reader Code} (hbody : body.Built) (pool : Pool) :
    (Attribute.readWith body pool).Built := by
  refine built_uint16.bind fun index => built_uint32.bind fun length =>
    (pool.built_text index).bind fun name => (built_report _).bind fun _ => ?_
  cases Kind.ofName? name with
  | none => exact .fail nofun
  | some kind =>
    refine .bind ?_ fun _ => (built_report _).bind fun _ => .pure _
    cases kind with
    | code => exact hbody.bind fun _ => .pure _
    | sourceFile =>
      rw [readContent]
      split
      · exact built_uint16.bind fun _ => .pure _
      · exact .fail nofun
    | lineNumberTable => exact (built_take _ _).bind fun _ => .pure _
    | localVariableTable => exact (built_take _ _).bind fun _ => .pure _

theorem Handler.built_read : Handler.read.Built :=
  built_uint16.bind fun _ => built_uint16.bind fun _ => built_uint16.bind fun _ =>
    built_uint16.bind fun _ => .pure _

theorem Code.built_read (pool : Pool) : (Code.read pool).Built := by
  have hbody : (Reader.fail .nestedCode : Reader Code).Built := .fail nofun
  have hnested : (Attribute.readNested pool).Built := Attribute.built_readWith hbody pool
  refine built_uint16.bind fun maxStack => built_uint16.bind fun maxLocals => ?_
  refine built_uint32.bind fun codeLength => (built_take _ _).bind fun bytecode => ?_
  refine built_uint16.bind fun handlersCount => (Handler.built_read.repeated _).bind fun _ => ?_
  refine built_uint16.bind fun attributesCount => (hnested.repeated _).bind fun _ => ?_
  exact .pure _

theorem Attribute.built_read (pool : Pool) : (Attribute.read pool).Built :=
  Attribute.built_readWith (Code.built_read pool) pool

theorem Attribute.built_readAll (count : UInt16) (pool : Pool) :
    (Attribute.readAll count pool).Built :=
  (Attribute.built_read pool).repeated count.toNat

theorem Method.built_read (pool : Pool) : (Method.read pool).Built := by
  refine built_access.bind fun access => built_uint16.bind fun nameIndex => ?_
  refine built_uint16.bind fun descriptorIndex => built_uint16.bind fun attributesCount => ?_
  refine (built_report _).bind fun _ => (Attribute.built_readAll _ pool).bind fun _ => ?_
  exact .pure _

/-! ## Classes and sessions -/

theorem Reader.built_expect (field : Field) (expected : UInt16) : (expect field expected).Built :=
  built_uint16.bind fun _ => (built_check _).bind fun _ => .pure _

theorem Reader.built_expectAccess (field : Field) (expected : Access) :
    (expectAccess field expected).Built :=
  built_access.bind fun _ => (built_check _).bind fun _ => .pure _

theorem Reader.built_expectHeader (expected : Bytes) : (expectHeader expected).Built := by
  refine built_header.bind fun actual => ?_
  split
  · exact .pure ()
  · exact .fail nofun

theorem Layout.built_read (layout : Layout) : layout.read.Built := by
  -- the header and the constants
  refine (built_expectHeader _).bind fun _ => (built_expect _ _).bind fun count => ?_
  refine (Pool.built_read count).bind fun pool => ?_
  -- the six numbers in front of the constructor
  refine (built_expectAccess _ _).bind fun access => (built_expect _ _).bind fun thisClass => ?_
  refine (built_expect _ _).bind fun superClass => (built_expect _ _).bind fun interfaces => ?_
  refine (built_expect _ _).bind fun fields => (built_expect _ _).bind fun methods => ?_
  -- the constructor and the attributes, each with the checks behind it
  refine (Method.built_read pool).bind fun method => (built_checkAll _).bind fun _ => ?_
  refine (built_expect _ _).bind fun count => (Attribute.built_readAll count pool).bind fun _ => ?_
  exact (built_checkAll _).bind fun _ => .pure _

theorem Step.built_reader (step : Step) : step.reader.Built := by
  match step with
  | .header => exact built_header.map _
  | .uint8 => exact built_uint8.map _
  | .uint16 => exact built_uint16.map _
  | .uint32 => exact built_uint32.map _
  | .pool count => exact (Pool.built_read count).map _
  | .method constants => exact (Method.built_read constants).map _
  | .attribute constants => exact (Attribute.built_read constants).map _
  | .attributes count constants => exact (Attribute.built_readAll count constants).map _

/-- **Nothing is read ahead.**  Neither the reading of a class nor any step of a session depends on
a byte that it does not use, and both end with the bytes on every beginning that is too short. -/
theorem noLookahead_read_and_step (layout : Layout) (step : Step) :
    layout.read.NoLookahead ∧ step.reader.NoLookahead :=
  ⟨layout.built_read.noLookahead, step.built_reader.noLookahead⟩

end ClassAudit
