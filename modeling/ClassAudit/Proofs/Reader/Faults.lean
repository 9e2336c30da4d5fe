import ClassAudit.Layout.Reading
import ClassAudit.Proofs.Reader.Failure

/-!
# With which faults a reader can end

`Fault.OfReading` lists the faults with which the reading of a class, or of a part of one, can end.
Most of them come with something that is known of their content: a header differs from the expected
one, the entry at the index of a name is not a text, a length that was refused is not two.

`reader.FailsOnly P` says that every fault of a reader satisfies `P`.  It passes through `>>=`, and
there the second step may use that the first one has given its value (`FailsOnly.bind_of_gives`).
The parts of a class follow one by one, in the order of the model.  Nothing is held against a layout
in them, so their faults are no mismatches (`Fault.OfPart`).
-/

namespace ClassAudit

/-- A fault with which the reading of a class can end.  There is none for a class that is not found,
none for an entry that should be something else than a text, and none for a value that is not
there. -/
inductive Fault.OfReading : Fault → Prop where
  | endOfInput (extent : Extent) : OfReading (.endOfInput extent)
  | header {expected actual : Bytes} (hdiffer : actual ≠ expected) :
      OfReading (.header expected actual)
  | mismatch {made : Check} (hdiffer : made.expected ≠ made.actual)
      (hthere : made.actual ≠ .nothing) : OfReading (.mismatch made)
  | unknownTag (tag : UInt8) : OfReading (.unknownTag tag)
  | invalidText : OfReading .invalidText
  | invalidIndex (index : UInt16) : OfReading (.invalidIndex index)
  | notText {index : UInt16} {found : Constant} (hkind : found.kind ≠ .utf8) :
      OfReading (.unexpectedConstant .utf8 index found)
  | nestedCode : OfReading .nestedCode
  | unknownAttribute (name : String) : OfReading (.unknownAttribute name)
  | sourceFileLength {length : UInt32} (hlength : length ≠ 2) :
      OfReading (.sourceFileLength length)

/-- A fault with which the reading of a part of a class can end, where no value is checked. -/
def Fault.OfPart (fault : Fault) : Prop :=
  fault.OfReading ∧ ∀ made, fault ≠ .mismatch made

namespace Reader

variable {α β : Type} {P Q : Fault → Prop}

/-- Every fault of a reader is of one sort. -/
def FailsOnly (reader : Reader α) (P : Fault → Prop) : Prop :=
  ∀ bytes fault, (reader bytes).result = .error fault → P fault

theorem FailsOnly.mono {reader : Reader α} (hreader : reader.FailsOnly P)
    (himplies : ∀ fault, P fault → Q fault) : reader.FailsOnly Q :=
  fun bytes fault hfault => himplies fault (hreader bytes fault hfault)

/-! ## Steps and their composition -/

theorem failsOnly_pure (value : α) : (pure value : Reader α).FailsOnly P := by
  intro bytes fault hfault
  cases hfault

theorem failsOnly_report (event : Event) : (report event).FailsOnly P := by
  intro bytes fault hfault
  cases hfault

theorem failsOnly_fail {fault : Fault} (hsort : P fault) :
    (fail fault : Reader α).FailsOnly P := by
  intro bytes found hfound
  cases hfound
  exact hsort

/-- The second step is asked only for the values that the first one gives. -/
theorem FailsOnly.bind_of_gives {first : Reader α} {next : α → Reader β}
    (hfirst : first.FailsOnly P)
    (hnext : ∀ value bytes rest, first.Gives bytes value rest → (next value).FailsOnly P) :
    (first >>= next).FailsOnly P := by
  intro bytes fault hfault
  rcases fails_bind_iff.mp ⟨hfault, rfl⟩ with hstop | ⟨value, middle, hgives, hlater⟩
  · exact hfirst bytes fault hstop.1
  · exact hnext value bytes middle hgives middle fault hlater.1

theorem FailsOnly.bind {first : Reader α} {next : α → Reader β} (hfirst : first.FailsOnly P)
    (hnext : ∀ value, (next value).FailsOnly P) : (first >>= next).FailsOnly P :=
  hfirst.bind_of_gives fun value _ _ _ => hnext value

theorem FailsOnly.repeatedFrom {item : Nat → Reader α} (hitem : ∀ index, (item index).FailsOnly P)
    (index count : Nat) : (Reader.repeatedFrom index count item).FailsOnly P := by
  induction count generalizing index with
  | zero => exact failsOnly_pure []
  | succ count ih =>
    rw [repeatedFrom_succ]
    exact (hitem index).bind fun _ => (ih (index + 1)).bind fun _ => failsOnly_pure _

theorem FailsOnly.repeated {item : Reader α} (hitem : item.FailsOnly P) (count : Nat) :
    (Reader.repeated count item).FailsOnly P :=
  FailsOnly.repeatedFrom (fun _ => hitem) 0 count

/-! ## Bytes and numbers -/

theorem failsOnly_take (extent : Extent) (size : Nat) :
    (take extent size).FailsOnly Fault.OfPart := by
  intro bytes fault hfault
  by_cases henough : size ≤ bytes.length
  · rw [take_of_le extent henough] at hfault
    cases hfault
  · rw [take_of_lt extent (by omega)] at hfault
    cases hfault
    exact ⟨.endOfInput extent, fun _ => Fault.noConfusion⟩

theorem failsOnly_uint8 : uint8.FailsOnly Fault.OfPart :=
  (failsOnly_take _ _).bind fun _ => failsOnly_pure _

theorem failsOnly_uint16 : uint16.FailsOnly Fault.OfPart :=
  (failsOnly_take _ _).bind fun _ => failsOnly_pure _

theorem failsOnly_uint32 : uint32.FailsOnly Fault.OfPart :=
  (failsOnly_take _ _).bind fun _ => failsOnly_pure _

theorem failsOnly_access : access.FailsOnly Fault.OfPart :=
  failsOnly_uint16.bind fun _ => failsOnly_pure _

end Reader

open Reader

/-! ## Constants -/

theorem Constant.failsOnly_read : Constant.read.FailsOnly Fault.OfPart := by
  refine failsOnly_uint8.bind fun tag => ?_
  cases Kind.ofTag? tag with
  | none => exact failsOnly_fail ⟨.unknownTag tag, fun _ => Fault.noConfusion⟩
  | some kind =>
    cases kind with
    | utf8 =>
      refine failsOnly_uint16.bind fun length => (failsOnly_take _ _).bind fun payload => ?_
      cases Text.Payload.decode? payload with
      | none => exact failsOnly_fail ⟨.invalidText, fun _ => Fault.noConfusion⟩
      | some text => exact failsOnly_pure _
    | classEntry => exact failsOnly_uint16.bind fun _ => failsOnly_pure _
    | methodRef =>
      exact failsOnly_uint16.bind fun _ => failsOnly_uint16.bind fun _ => failsOnly_pure _
    | nameAndType =>
      exact failsOnly_uint16.bind fun _ => failsOnly_uint16.bind fun _ => failsOnly_pure _

theorem Pool.failsOnly_read (count : UInt16) : (Pool.read count).FailsOnly Fault.OfPart := by
  have hentry (index : Nat) : (Constant.readEntry index).FailsOnly Fault.OfPart :=
    Constant.failsOnly_read.bind fun _ => (failsOnly_report _).bind fun _ => failsOnly_pure _
  exact (FailsOnly.repeatedFrom hentry 1 _).bind fun _ => failsOnly_pure _

/-- The name of an attribute is the only thing that is looked up, and it has to be a text. -/
theorem Pool.failsOnly_text (pool : Pool) (index : UInt16) :
    (ofExcept (pool.text index)).FailsOnly Fault.OfPart := by
  unfold Pool.text Pool.lookup
  cases pool.get? index with
  | none => exact failsOnly_fail ⟨.invalidIndex index, fun _ => Fault.noConfusion⟩
  | some found =>
    cases found with
    | utf8 text => exact failsOnly_pure text
    | classEntry nameIndex => exact failsOnly_fail ⟨.notText nofun, fun _ => Fault.noConfusion⟩
    | methodRef classIndex nameAndTypeIndex =>
      exact failsOnly_fail ⟨.notText nofun, fun _ => Fault.noConfusion⟩
    | nameAndType nameIndex descriptorIndex =>
      exact failsOnly_fail ⟨.notText nofun, fun _ => Fault.noConfusion⟩

/-! ## Attributes and methods -/

theorem Attribute.failsOnly_readWith {body : Reader Code} (hbody : body.FailsOnly Fault.OfPart)
    (pool : Pool) : (Attribute.readWith body pool).FailsOnly Fault.OfPart := by
  refine failsOnly_uint16.bind fun index => failsOnly_uint32.bind fun length => ?_
  refine (pool.failsOnly_text index).bind fun name => (failsOnly_report _).bind fun _ => ?_
  cases Kind.ofName? name with
  | none => exact failsOnly_fail ⟨.unknownAttribute name, fun _ => Fault.noConfusion⟩
  | some kind =>
    refine .bind ?_ fun _ => (failsOnly_report _).bind fun _ => failsOnly_pure _
    cases kind with
    | code => exact hbody.bind fun _ => failsOnly_pure _
    | sourceFile =>
      rw [readContent]
      split
      · exact failsOnly_uint16.bind fun _ => failsOnly_pure _
      · next hlength => exact failsOnly_fail ⟨.sourceFileLength hlength, fun _ => Fault.noConfusion⟩
    | lineNumberTable => exact (failsOnly_take _ _).bind fun _ => failsOnly_pure _
    | localVariableTable => exact (failsOnly_take _ _).bind fun _ => failsOnly_pure _

theorem Handler.failsOnly_read : Handler.read.FailsOnly Fault.OfPart :=
  failsOnly_uint16.bind fun _ => failsOnly_uint16.bind fun _ => failsOnly_uint16.bind fun _ =>
    failsOnly_uint16.bind fun _ => failsOnly_pure _

theorem Code.failsOnly_read (pool : Pool) : (Code.read pool).FailsOnly Fault.OfPart := by
  have hnested : (Attribute.readNested pool).FailsOnly Fault.OfPart :=
    Attribute.failsOnly_readWith (failsOnly_fail ⟨.nestedCode, fun _ => Fault.noConfusion⟩) pool
  refine failsOnly_uint16.bind fun maxStack => failsOnly_uint16.bind fun maxLocals => ?_
  refine failsOnly_uint32.bind fun codeLength => (failsOnly_take _ _).bind fun bytecode => ?_
  refine failsOnly_uint16.bind fun _ => (Handler.failsOnly_read.repeated _).bind fun handlers => ?_
  refine failsOnly_uint16.bind fun _ => (hnested.repeated _).bind fun attributes => ?_
  exact failsOnly_pure _

theorem Attribute.failsOnly_readAll (count : UInt16) (pool : Pool) :
    (Attribute.readAll count pool).FailsOnly Fault.OfPart :=
  (Attribute.failsOnly_readWith (Code.failsOnly_read pool) pool).repeated count.toNat

theorem Method.failsOnly_read (pool : Pool) : (Method.read pool).FailsOnly Fault.OfPart := by
  refine failsOnly_access.bind fun access => failsOnly_uint16.bind fun nameIndex => ?_
  refine failsOnly_uint16.bind fun descriptorIndex => failsOnly_uint16.bind fun count => ?_
  refine (failsOnly_report _).bind fun _ => ?_
  refine (Attribute.failsOnly_readAll count pool).bind fun attributes => ?_
  exact failsOnly_pure _

end ClassAudit
