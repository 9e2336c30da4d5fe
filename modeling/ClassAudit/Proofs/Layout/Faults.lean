import ClassAudit.Proofs.Layout.Checks
import ClassAudit.Proofs.Reader.Faults
import Mathlib.Tactic.SplitIfs

/-!
# The faults that a class can have

A check may ask for the value of a field that is not there: an opcode behind the end of a body, or
the kind of the first attribute of an empty list.  No such check is made.  Checks are made in order,
and one that fails is the last (`Check.Made`); the check on the length of a body stands in front of
those on its opcodes, and the check on the number of attributes in front of the one on their kind.
`ConstructorLayout.checks_made` and `Layout.attributeChecks_made` follow from this.

`Layout.failsOnly_read_reports` goes through the reading of a class and finds no other faults than
those of `Fault.OfReading`, and no other mismatches than in checks that the layout asks for.  Its
one step with an argument is the last: the attributes of a class are as many as their count, hence
not none.
-/

namespace ClassAudit

/-! ## Checks that are made -/

namespace Check

/-- A check is made if all checks in front of it in a list pass. -/
inductive Made : List Check → Check → Prop where
  | here {made : Check} {later : List Check} : Made (made :: later) made
  | behind {first made : Check} {later : List Check} (hpasses : first.expected = first.actual)
      (hlater : Made later made) : Made (first :: later) made

@[simp] theorem not_made_nil {made : Check} : ¬ Made [] made := nofun

@[simp] theorem made_cons_iff {first made : Check} {later : List Check} :
    Made (first :: later) made ↔
      made = first ∨ first.expected = first.actual ∧ Made later made := by
  constructor
  · intro hmade
    cases hmade with
    | here => exact .inl rfl
    | behind hpasses hlater => exact .inr ⟨hpasses, hlater⟩
  · rintro (rfl | ⟨hpasses, hlater⟩)
    · exact .here
    · exact .behind hpasses hlater

/-- The check that fails first is made. -/
theorem made_of_firstFailure? {checks : List Check} {failed : Check}
    (hfailed : firstFailure? checks = some failed) :
    Made checks failed ∧ failed.expected ≠ failed.actual := by
  induction checks with
  | nil => cases hfailed
  | cons first later ih =>
    unfold firstFailure? at hfailed ih
    by_cases hpasses : first.expected = first.actual
    · simp only [List.find?_cons, passes, hpasses, decide_true, Bool.not_true] at hfailed
      obtain ⟨hmade, hdiffers⟩ := ih hfailed
      exact ⟨.behind hpasses hmade, hdiffers⟩
    · simp only [List.find?_cons, passes, hpasses, decide_false, Bool.not_false,
        Option.some.injEq] at hfailed
      subst hfailed
      exact ⟨.here, hpasses⟩

end Check

namespace Field

/-- Whether a field is looked up in the bytes of a body. -/
def inBytecode : Field → Bool
  | firstOpcode | secondOpcode | calledConstructor | lastOpcode => true
  | _ => false

end Field

namespace ConstructorLayout

variable {layout : ConstructorLayout} {made : Check}

/-- Behind the check on the length of a body, its bytes are looked up where there are five. -/
theorem codeChecks_made {code : Code} (hmade : Check.Made (layout.codeChecks code) made) :
    made.actual ≠ .nothing ∧ (made.field.inBytecode → code.bytecode.length = 5) := by
  obtain ⟨maxStack, maxLocals, bytecode, handlers, attributes⟩ := code
  simp only [codeChecks, Check.number, Check.made_cons_iff, Check.not_made_nil, and_false,
    or_false] at hmade
  rcases hmade with rfl | ⟨-, rfl | ⟨-, rfl | ⟨hlength, rfl | ⟨-, rfl | ⟨-, hopcode⟩⟩⟩⟩⟩
  case inr.inr.inr.inr.inr =>
    have hfive : bytecode.length = 5 := (Value.number.inj hlength).symm
    refine ⟨?_, fun _ => hfive⟩
    have hthere {offset : Nat} (hoffset : offset < 5) : ∃ byte, bytecode[offset]? = some byte :=
      ⟨_, List.getElem?_eq_getElem (hfive ▸ hoffset)⟩
    obtain ⟨first, hfirst⟩ := hthere (show 0 < 5 by omega)
    obtain ⟨second, hsecond⟩ := hthere (show 1 < 5 by omega)
    obtain ⟨upper, hupper⟩ := hthere (show 2 < 5 by omega)
    obtain ⟨lower, hlower⟩ := hthere (show 3 < 5 by omega)
    obtain ⟨last, hlast⟩ := hthere (show 4 < 5 by omega)
    rw [hfirst, hsecond, hupper, hlower, hlast] at hopcode
    rcases hopcode with rfl | ⟨-, rfl | ⟨-, rfl | ⟨-, rfl⟩⟩⟩
    all_goals exact Value.noConfusion
  -- the fields in front are numbers, and none of them is looked up in the bytes
  all_goals exact ⟨Value.noConfusion, Bool.noConfusion⟩

/-- A check on a constructor finds a value, and an opcode is looked for in a body of five bytes. -/
theorem checks_made {method : Method} (hmade : Check.Made (layout.checks method) made) :
    made.actual ≠ .nothing ∧
      (made.field.inBytecode → ∃ code, method.attributes.head? = some (.code code) ∧
        code.bytecode.length = 5) := by
  obtain ⟨access, nameIndex, descriptorIndex, attributes⟩ := method
  simp only [checks, Check.number, List.cons_append, List.nil_append, Check.made_cons_iff]
    at hmade
  rcases hmade with rfl | ⟨-, rfl | ⟨-, rfl | ⟨-, rfl | ⟨hcount, hmade⟩⟩⟩⟩
  case inr.inr.inr.inr =>
    have hone : attributes.length = 1 := (Value.number.inj hcount).symm
    obtain ⟨item, rfl⟩ := List.length_eq_one_iff.mp hone
    rcases hmade with rfl | ⟨-, hbody⟩
    · exact ⟨Value.noConfusion, Bool.noConfusion⟩
    · cases item with
      | code code =>
        obtain ⟨hfound, hlength⟩ := codeChecks_made hbody
        exact ⟨hfound, fun hinside => ⟨code, rfl, hlength hinside⟩⟩
      | sourceFile nameIndex => exact absurd hbody Check.not_made_nil
      | lineNumberTable length => exact absurd hbody Check.not_made_nil
      | localVariableTable length => exact absurd hbody Check.not_made_nil
  all_goals exact ⟨Value.noConfusion, Bool.noConfusion⟩

end ConstructorLayout

/-- A check on the attributes of a class finds a value if there is an attribute at all. -/
theorem Layout.attributeChecks_made {layout : Layout} {attributes : List Attribute} {made : Check}
    (hsome : attributes ≠ []) (hmade : Check.Made (layout.attributeChecks attributes) made) :
    made.actual ≠ .nothing := by
  obtain ⟨item, others, rfl⟩ := List.exists_cons_of_ne_nil hsome
  simp only [attributeChecks, List.cons_append, List.nil_append, List.head?_cons,
    Check.made_cons_iff] at hmade
  rcases hmade with rfl | ⟨-, hmade⟩
  · exact Value.noConfusion
  · cases item with
    | sourceFile nameIndex =>
      simp only [Check.number, Check.made_cons_iff, Check.not_made_nil, and_false, or_false]
        at hmade
      subst hmade
      exact Value.noConfusion
    | code code => exact absurd hmade Check.not_made_nil
    | lineNumberTable length => exact absurd hmade Check.not_made_nil
    | localVariableTable length => exact absurd hmade Check.not_made_nil

/-! ## Values and their texts -/

namespace Value

/-- A text that begins with another letter. -/
theorem text_ne_nothing_of_head {text : String} {first : Char} {others : List Char}
    (htext : text.toList = first :: others) (hletter : first ≠ 'n') : text ≠ "nothing" := by
  rintro rfl
  exact hletter (List.cons.inj htext).1.symm

theorem text_number_ne (value : Nat) : (number value).text ≠ "nothing" := by
  have hnumber : (toString value).toList = Nat.toDigits 10 value := by
    rw [Nat.toString_eq_ofList_toDigits, String.toList_ofList]
  have hsome : Nat.toDigits 10 value ≠ [] := Nat.toDigits_ne_nil
  obtain ⟨first, others, hdigits⟩ := List.exists_cons_of_ne_nil hsome
  have hmember : first ∈ Nat.toDigits 10 value := by simp [hdigits]
  have hdigit : first.isDigit := Nat.isDigit_of_mem_toDigits (by omega) (by omega) hmember
  apply text_ne_nothing_of_head (hnumber.trans hdigits)
  rintro rfl
  exact absurd hdigit (by decide)

theorem text_access_ne (flags : Access) : (access flags).text ≠ "nothing" := by
  show flags.text ≠ "nothing"
  unfold Access.text
  cases flags.flags with
  | nil => decide
  | cons flag others =>
    have hname : ∃ first rest, flag.name.toList = first :: rest ∧ first ≠ 'n' := by
      cases flag <;> exact ⟨_, _, rfl, by decide⟩
    obtain ⟨first, rest, hname, hletter⟩ := hname
    -- the names are joined, so the first letter of the first one begins the text
    have htext : ∃ behind, (" | ".intercalate ((flag :: others).map Access.Flag.name)).toList =
        first :: behind := by
      rw [String.toList_intercalate, List.map_cons, List.map_cons, hname]
      cases others with
      | nil => exact ⟨rest, List.intercalate_singleton⟩
      | cons next later =>
        rw [List.map_cons, List.map_cons, List.intercalate_cons_cons]
        exact ⟨_, rfl⟩
    obtain ⟨behind, htext⟩ := htext
    exact text_ne_nothing_of_head htext hletter

theorem text_opcode_ne (byte : Opcode) : (opcode byte).text ≠ "nothing" := by
  show byte.text ≠ "nothing"
  have hfirst : ∃ first behind, byte.text.toList = first :: behind ∧ first ≠ 'n' := by
    unfold Opcode.text
    cases hmnemonic : byte.mnemonic? with
    | none =>
      exact ⟨'0', 'x' :: (Text.Hexadecimal.byte byte).toList, String.toList_append, by decide⟩
    | some mnemonic =>
      have hname : ∃ first rest, mnemonic.toList = first :: rest ∧ first ≠ 'n' := by
        unfold Opcode.mnemonic? at hmnemonic
        split_ifs at hmnemonic <;> cases hmnemonic <;> exact ⟨_, _, rfl, by decide⟩
      obtain ⟨first, rest, hname, hletter⟩ := hname
      simp only [String.toList_append, hname, List.cons_append]
      exact ⟨first, _, rfl, hletter⟩
  obtain ⟨first, behind, htext, hletter⟩ := hfirst
  exact text_ne_nothing_of_head htext hletter

/-- Only a value that is not there is shown as nothing. -/
theorem text_eq_nothing_iff {value : Value} : value.text = "nothing" ↔ value = .nothing := by
  constructor
  · intro htext
    cases value with
    | number value => exact absurd htext (text_number_ne value)
    | access flags => exact absurd htext (text_access_ne flags)
    | opcode byte => exact absurd htext (text_opcode_ne byte)
    | attributeKind kind => exact absurd htext (by cases kind <;> decide)
    | nothing => rfl
  · rintro rfl
    rfl

end Value

/-! ## Classes -/

/-- A fault with which the reading of a class by a layout can end.  If it is a mismatch, then one of
the checks that the layout asks for. -/
def Layout.Reports (layout : Layout) (fault : Fault) : Prop :=
  fault.OfReading ∧ ∀ made, fault = .mismatch made → layout.Asks made

theorem Layout.Asks.reports {layout : Layout} {made : Check} (hasks : layout.Asks made)
    (hdiffer : made.expected ≠ made.actual) (hthere : made.actual ≠ .nothing) :
    layout.Reports (.mismatch made) := by
  refine ⟨.mismatch hdiffer hthere, fun found hfound => ?_⟩
  cases hfound
  exact hasks

namespace Reader

variable {layout : Layout}

theorem FailsOnly.reports {α : Type} {reader : Reader α} (hreader : reader.FailsOnly Fault.OfPart) :
    reader.FailsOnly layout.Reports :=
  hreader.mono fun _ hpart => ⟨hpart.1, fun made hmade => absurd hmade (hpart.2 made)⟩

theorem failsOnly_check {made : Check} (hasks : layout.Asks made)
    (hthere : made.actual ≠ .nothing) : (check made).FailsOnly layout.Reports := by
  unfold check
  by_cases hpasses : made.expected = made.actual
  · simp only [Check.passes, hpasses, decide_true, if_true]
    exact failsOnly_pure ()
  · simp only [Check.passes, hpasses, decide_false, if_false, Bool.false_eq_true]
    exact failsOnly_fail (hasks.reports hpasses hthere)

theorem failsOnly_checkAll {checks : List Check} (hasks : ∀ made ∈ checks, layout.Asks made)
    (hthere : ∀ made, Check.Made checks made → made.actual ≠ .nothing) :
    (checkAll checks).FailsOnly layout.Reports := by
  unfold checkAll
  cases hfailed : Check.firstFailure? checks with
  | none => exact failsOnly_pure ()
  | some failed =>
    obtain ⟨hmade, hdiffers⟩ := Check.made_of_firstFailure? hfailed
    have hmember : failed ∈ checks := List.mem_of_find?_eq_some hfailed
    exact failsOnly_fail ((hasks failed hmember).reports hdiffers (hthere failed hmade))

theorem failsOnly_expect {field : Field} {expected : UInt16}
    (hexpected : layout.expected field = .number expected.toNat) (hkind : field.kind = .number) :
    (expect field expected).FailsOnly layout.Reports := by
  refine failsOnly_uint16.reports.bind fun actual => ?_
  have hasks : layout.Asks (.number field expected.toNat actual.toNat) :=
    ⟨hexpected.symm, .inl (congrArg some hkind.symm)⟩
  exact (failsOnly_check hasks Value.noConfusion).bind fun _ => failsOnly_pure _

theorem failsOnly_expectAccess {field : Field} {expected : Access}
    (hexpected : layout.expected field = .access expected) (hkind : field.kind = .access) :
    (expectAccess field expected).FailsOnly layout.Reports := by
  refine failsOnly_access.reports.bind fun actual => ?_
  have hasks : layout.Asks ⟨field, .access expected, .access actual⟩ :=
    ⟨hexpected.symm, .inl (congrArg some hkind.symm)⟩
  exact (failsOnly_check hasks Value.noConfusion).bind fun _ => failsOnly_pure _

theorem failsOnly_expectHeader (expected : Bytes) :
    (expectHeader expected).FailsOnly layout.Reports := by
  refine (failsOnly_take _ _).reports.bind fun actual => ?_
  split
  · exact failsOnly_pure ()
  · next hdiffers => exact failsOnly_fail ⟨.header hdiffers, fun _ => Fault.noConfusion⟩

end Reader

open Reader

namespace Layout

variable (layout : Layout)

theorem failsOnly_read_reports : layout.read.FailsOnly layout.Reports := by
  -- the header and the constants
  refine (failsOnly_expectHeader _).bind fun _ => (failsOnly_expect rfl rfl).bind fun count => ?_
  refine (Pool.failsOnly_read count).reports.bind fun pool => ?_
  -- the six numbers in front of the constructor
  refine (failsOnly_expectAccess rfl rfl).bind fun access => ?_
  refine (failsOnly_expect rfl rfl).bind fun _ => (failsOnly_expect rfl rfl).bind fun _ => ?_
  refine (failsOnly_expect rfl rfl).bind fun interfaces => ?_
  refine (failsOnly_expect rfl rfl).bind fun fields => ?_
  refine (failsOnly_expect rfl rfl).bind fun methods => ?_
  -- the constructor: a check that is made finds a value
  refine (Method.failsOnly_read pool).reports.bind fun method => ?_
  have hfound (made : Check) (hmade : Check.Made (layout.constructor.checks method) made) :
      made.actual ≠ .nothing := (ConstructorLayout.checks_made hmade).1
  refine (failsOnly_checkAll (layout.asks_constructor_checks method) hfound).bind fun _ => ?_
  -- the attributes of the class, of which there is one
  refine (failsOnly_expect rfl rfl).bind_of_gives fun count _ _ hcount => ?_
  refine (Attribute.failsOnly_readAll count pool).reports.bind_of_gives
    fun attributes _ _ hread => ?_
  have hsome : attributes ≠ [] := by
    obtain ⟨rfl, -⟩ := gives_expect_iff.mp hcount
    obtain ⟨_, -, hlength, -⟩ := (Attribute.reads_readAll 1 pool _ _ _).mp hread
    rintro rfl
    cases hlength
  refine (failsOnly_checkAll (layout.asks_attributeChecks attributes)
    fun made hmade => attributeChecks_made hsome hmade).bind fun _ => ?_
  exact failsOnly_pure _

theorem failsOnly_read : layout.read.FailsOnly Fault.OfReading :=
  layout.failsOnly_read_reports.mono fun _ hreports => hreports.1

/-- **No impossible branch is taken.**  Of the checks on a constructor, each that is made finds a
value, and if it looks an opcode or an operand up, then in a body of five bytes; the checks on the
attributes of a class find a value as soon as there is an attribute.  A reading that does not
succeed ends with one of the faults of `Fault.OfReading`, whatever the bytes are; so a mismatch
never shows that nothing was found, what is looked up is always a text, and no class is not
found. -/
theorem no_impossible_branch (layout : Layout) :
    (∀ method made, Check.Made (layout.constructor.checks method) made →
      made.actual ≠ .nothing ∧
        (made.field.inBytecode → ∃ code, method.attributes.head? = some (.code code) ∧
          code.bytecode.length = 5)) ∧
    (∀ attributes made, attributes ≠ [] → Check.Made (layout.attributeChecks attributes) made →
      made.actual ≠ .nothing) ∧
    ∀ bytes fault, (layout.read bytes).result = .error fault →
      fault.OfReading ∧ (∀ made, fault = .mismatch made → made.actual.text ≠ "nothing") ∧
        (∀ expected index found, fault = .unexpectedConstant expected index found →
          expected = .utf8) ∧
        ∀ name, fault ≠ .classNotFound name := by
  refine ⟨fun method made hmade => ConstructorLayout.checks_made hmade,
    fun attributes made hsome hmade => attributeChecks_made hsome hmade, ?_⟩
  intro bytes fault hfault
  have hlisted : fault.OfReading := layout.failsOnly_read bytes fault hfault
  refine ⟨hlisted, ?_, ?_, ?_⟩
  · rintro made rfl
    cases hlisted with
    | mismatch _ hthere =>
      rw [Ne, Value.text_eq_nothing_iff]
      exact hthere
  · rintro expected index found rfl
    cases hlisted with
    | notText _ => rfl
  · rintro name rfl
    cases hlisted

end Layout

end ClassAudit
