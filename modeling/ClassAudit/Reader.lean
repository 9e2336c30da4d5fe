import ClassAudit.Event
import ClassAudit.Fault

/-!
# Readers

A reader takes bytes from the front of its input.  It ends with a value or a fault, and in either
case with the bytes that are left and the events that it has reported.  All readers are built from
`take`, which is the only one that looks at the input: it takes a number of bytes, or, if there
are fewer, takes all of them and fails.

Readers form a monad in which a fault stops the reading and the events of a first reader come
before those of a second.  `repeated` runs a reader a number of times; `repeated_zero` and
`repeated_succ` are its equations.
-/

namespace ClassAudit

/-- How a reading ended. -/
structure Outcome (α : Type) where
  /-- The value that was read, or the fault that stopped the reading. -/
  result : Except Fault α
  /-- The bytes that are left. -/
  rest : Bytes
  /-- The events that were reported, the first one in front. -/
  log : List Event

/-- A way to read a value from the front of some bytes. -/
def Reader (α : Type) := Bytes → Outcome α

namespace Reader

variable {α β : Type}

/-- Reads nothing and gives a value. -/
protected def pure (value : α) : Reader α :=
  fun bytes => ⟨.ok value, bytes, []⟩

/-- Reads a second value in a way that depends on the first. -/
protected def bind (first : Reader α) (next : α → Reader β) : Reader β :=
  fun bytes =>
    match first bytes with
    | ⟨.error fault, rest, log⟩ => ⟨.error fault, rest, log⟩
    | ⟨.ok value, rest, log⟩ =>
      let second := next value rest
      ⟨second.result, second.rest, log ++ second.log⟩

instance : Monad Reader where
  pure := Reader.pure
  bind := Reader.bind

/-- Reads nothing and fails. -/
def fail (fault : Fault) : Reader α :=
  fun bytes => ⟨.error fault, bytes, []⟩

/-- Reads nothing and reports an event. -/
def report (event : Event) : Reader Unit :=
  fun bytes => ⟨.ok (), bytes, [event]⟩

/-- Reads nothing and ends as something computed has ended. -/
def ofExcept (computed : Except Fault α) : Reader α :=
  match computed with
  | .ok value => .pure value
  | .error fault => fail fault

/-- Takes a number of bytes, or takes all bytes and fails if there are fewer. -/
def take (extent : Extent) (size : Nat) : Reader Bytes :=
  fun bytes =>
    let taken := bytes.take size
    if taken.length = size then ⟨.ok taken, bytes.drop size, []⟩
    else ⟨.error (.endOfInput extent), [], []⟩

/-! ### What is taken and what is left -/

theorem take_of_le (extent : Extent) {size : Nat} {bytes : Bytes} (enough : size ≤ bytes.length) :
    take extent size bytes = ⟨.ok (bytes.take size), bytes.drop size, []⟩ := by
  simp [take, Nat.min_eq_left enough]

theorem take_of_lt (extent : Extent) {size : Nat} {bytes : Bytes} (short : bytes.length < size) :
    take extent size bytes = ⟨.error (.endOfInput extent), [], []⟩ := by
  have differ : min size bytes.length ≠ size := by omega
  simp [take, differ]

@[simp] theorem take_append (extent : Extent) (front rest : Bytes) :
    take extent front.length (front ++ rest) = ⟨.ok front, rest, []⟩ := by
  rw [take_of_le extent (by simp)]
  simp

/-! ### Readers form a monad -/

theorem pure_eq (value : α) : (pure value : Reader α) = Reader.pure value := rfl

theorem bind_eq (first : Reader α) (next : α → Reader β) : first >>= next = first.bind next := rfl

instance : LawfulMonad Reader := LawfulMonad.mk' Reader
  (by
    intro α first
    funext bytes
    change first.bind (fun value => Reader.pure value) bytes = first bytes
    unfold Reader.bind
    split <;> simp_all [Reader.pure])
  (by
    intro α β value next
    funext bytes
    change (Reader.pure value).bind next bytes = next value bytes
    simp [Reader.bind, Reader.pure])
  (by
    intro α β γ first next last
    funext bytes
    change (first.bind next).bind last bytes =
      first.bind (fun value => (next value).bind last) bytes
    unfold Reader.bind
    cases first bytes with
    | mk result rest log =>
      cases result with
      | error fault => rfl
      | ok value =>
        dsimp only
        cases next value rest with
        | mk result rest log =>
          cases result with
          | error fault => rfl
          | ok value => simp)

/-! ### Numbers -/

/-- A byte. -/
def uint8 : Reader UInt8 := do
  let bytes ← take .fixed 1
  return .ofNat bytes.value

/-- A 16-bit number. -/
def uint16 : Reader UInt16 := do
  let bytes ← take .fixed 2
  return .ofNat bytes.value

/-- A 32-bit number. -/
def uint32 : Reader UInt32 := do
  let bytes ← take .fixed 4
  return .ofNat bytes.value

@[simp] theorem uint16_append (number : UInt16) (rest : Bytes) :
    uint16 (Bytes.ofUInt16 number ++ rest) = ⟨.ok number, rest, []⟩ := by
  have taken := take_append .fixed (Bytes.ofUInt16 number) rest
  rw [Bytes.length_ofUInt16] at taken
  simp [uint16, bind_eq, pure_eq, Reader.bind, Reader.pure, taken]

@[simp] theorem uint32_append (number : UInt32) (rest : Bytes) :
    uint32 (Bytes.ofUInt32 number ++ rest) = ⟨.ok number, rest, []⟩ := by
  have taken := take_append .fixed (Bytes.ofUInt32 number) rest
  rw [Bytes.length_ofUInt32] at taken
  simp [uint32, bind_eq, pure_eq, Reader.bind, Reader.pure, taken]

/-- A set of access flags. -/
def access : Reader Access := do
  let bits ← uint16
  return ⟨bits⟩

/-! ### Checks -/

/-- Fails with a check that does not pass. -/
def check (made : Check) : Reader Unit :=
  if made.passes then .pure () else fail (.mismatch made)

/-- Fails with the first of several checks that does not pass. -/
def checkAll (made : List Check) : Reader Unit :=
  match Check.firstFailure? made with
  | none => .pure ()
  | some failed => fail (.mismatch failed)

/-! ### Repetition -/

/-- Runs a reader a number of times behind the values and events of earlier runs, which are held in
reverse.  The reader is told the number of each run. -/
def repeatedOnto (item : Nat → Reader α) (read : List α) (log : List Event) :
    Nat → Nat → Reader (List α)
  | _, 0 => fun bytes => ⟨.ok read.reverse, bytes, log.reverse⟩
  | index, count + 1 => fun bytes =>
    match item index bytes with
    | ⟨.error fault, rest, more⟩ => ⟨.error fault, rest, (more.reverse ++ log).reverse⟩
    | ⟨.ok value, rest, more⟩ =>
      repeatedOnto item (value :: read) (more.reverse ++ log) (index + 1) count rest

/-- Runs a reader a number of times.  The reader is told the number of each run, of which `index`
is the first. -/
def repeatedFrom (index count : Nat) (item : Nat → Reader α) : Reader (List α) :=
  repeatedOnto item [] [] index count

/-- Runs a reader a number of times. -/
def repeated (count : Nat) (item : Reader α) : Reader (List α) :=
  repeatedFrom 0 count fun _ => item

/-- The values and events of earlier runs stand in front of those still to come. -/
theorem repeatedOnto_apply (item : Nat → Reader α) (read : List α) (log : List Event)
    (index count : Nat) (bytes : Bytes) :
    repeatedOnto item read log index count bytes =
      let later := repeatedFrom index count item bytes
      ⟨later.result.map (read.reverse ++ ·), later.rest, log.reverse ++ later.log⟩ := by
  have general (moreRead : List α) (moreLog : List Event) :
      repeatedOnto item (moreRead ++ read) (moreLog ++ log) index count bytes =
        let later := repeatedOnto item moreRead moreLog index count bytes
        ⟨later.result.map (read.reverse ++ ·), later.rest, log.reverse ++ later.log⟩ := by
    induction count generalizing index bytes moreRead moreLog with
    | zero => simp [repeatedOnto, Except.map]
    | succ count ih =>
      simp only [repeatedOnto]
      cases item index bytes with
      | mk result rest more =>
        cases result with
        | error fault => simp [Except.map]
        | ok value =>
          have step := ih (index + 1) rest (value :: moreRead) (more.reverse ++ moreLog)
          simpa using step
  exact general [] []

@[simp] theorem repeatedFrom_zero (index : Nat) (item : Nat → Reader α) :
    repeatedFrom index 0 item = pure [] := rfl

theorem repeatedFrom_succ (index count : Nat) (item : Nat → Reader α) :
    repeatedFrom index (count + 1) item = (do
      let value ← item index
      let later ← repeatedFrom (index + 1) count item
      return value :: later) := by
  funext bytes
  simp only [bind_eq, pure_eq, Reader.bind, Reader.pure]
  rw [repeatedFrom, repeatedOnto]
  cases first : item index bytes with
  | mk result rest more =>
    cases result with
    | error fault => simp [first]
    | ok value =>
      simp only [first, repeatedOnto_apply]
      cases later : repeatedFrom (index + 1) count item rest with
      | mk result rest more => cases result <;> simp [Except.map]

/-- A reader that is not told the number of its run does not depend on the first of them. -/
theorem repeatedFrom_const (index count : Nat) (item : Reader α) :
    (repeatedFrom index count fun _ => item) = repeated count item := by
  rw [repeated]
  generalize 0 = start
  induction count generalizing index start with
  | zero => rfl
  | succ count ih => rw [repeatedFrom_succ, repeatedFrom_succ, ih (index + 1) (start + 1)]

@[simp] theorem repeated_zero (item : Reader α) : repeated 0 item = pure [] := rfl

theorem repeated_succ (count : Nat) (item : Reader α) :
    repeated (count + 1) item = (do
      let value ← item
      let later ← repeated count item
      return value :: later) := by
  rw [repeated, repeatedFrom_succ, repeatedFrom_const]

end Reader

end ClassAudit
