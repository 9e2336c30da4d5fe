import ClassAudit.Proofs.Pool.Outcomes
import ClassAudit.Proofs.Reader.Report
import ClassAudit.Session

/-!
# Attributes as brackets of a log

The header of an attribute opens a bracket in a log, and the attribute itself closes it.  `depth` is
the number of brackets that are open behind some events.  It can be read off the lines of the log as
well, because no other line begins as one of these two (`depth_eq_lines`).

`reader.Bracketed bound` says of every reading, whatever its result, that the depth is never below
zero and never above the bound, and of every reading that succeeds that it leaves no bracket open.
This is kept by `>>=` and by repetition, and a pair of brackets around a reader adds one to the
bound (`Bracketed.enclose`).
-/

namespace ClassAudit

namespace Event

/-- How an event changes the number of open brackets. -/
def turn : Event → Int
  | attributeStart _ _ _ => 1
  | attributeEnd _ => -1
  | _ => 0

/-- The number of brackets that are open behind some events. -/
def depth : List Event → Int
  | [] => 0
  | event :: log => event.turn + depth log

@[simp] theorem depth_nil : depth [] = 0 := rfl

@[simp] theorem depth_cons (event : Event) (log : List Event) :
    depth (event :: log) = event.turn + depth log := rfl

@[simp] theorem depth_append (before after : List Event) :
    depth (before ++ after) = depth before + depth after := by
  induction before with
  | nil => simp
  | cons event before ih =>
    rw [List.cons_append, depth_cons, depth_cons, ih, Int.add_assoc]

/-! ## Lines -/

/-- A line begins as that of the header of an attribute. -/
def isHeaderLine (line : String) : Bool := "attribute ".toList.isPrefixOf line.toList

/-- A line begins as that of an attribute. -/
def isValueLine (line : String) : Bool := "\t".toList.isPrefixOf line.toList

/-- The line of a constant begins with a digit. -/
theorem exists_text_constant (index : Nat) (found : Constant) :
    ∃ digit rest, (constant index found).text.toList = digit :: rest ∧ digit.isDigit := by
  have htext : (constant index found).text = toString index ++ ": " ++ found.text := rfl
  have hnumber : (toString index).toList = Nat.toDigits 10 index := by
    rw [Nat.toString_eq_ofList_toDigits, String.toList_ofList]
  have hsome : Nat.toDigits 10 index ≠ [] := Nat.toDigits_ne_nil
  obtain ⟨digit, others, hdigits⟩ := List.exists_cons_of_ne_nil hsome
  have hmember : digit ∈ Nat.toDigits 10 index := by simp [hdigits]
  have hdigit : digit.isDigit := Nat.isDigit_of_mem_toDigits (by omega) (by omega) hmember
  refine ⟨digit, others ++ ": ".toList ++ found.text.toList, ?_, hdigit⟩
  rw [htext, String.toList_append, String.toList_append, hnumber, hdigits, List.cons_append,
    List.cons_append]

/-- A line that begins with another letter is none of a header. -/
theorem isHeaderLine_of_ne {line : String} {first : Char} {rest : List Char}
    (hline : line.toList = first :: rest) (hletter : first ≠ 'a') : isHeaderLine line = false := by
  have hheader : "attribute ".toList = 'a' :: "ttribute ".toList := rfl
  rw [isHeaderLine, hline, hheader, List.isPrefixOf_cons_cons, beq_false_of_ne hletter.symm,
    Bool.false_and]

theorem isValueLine_eq {line : String} {first : Char} {rest : List Char}
    (hline : line.toList = first :: rest) : isValueLine line = (first == '\t') := by
  have hvalue : "\t".toList = ['\t'] := rfl
  rw [isValueLine, hline, hvalue, List.isPrefixOf_cons_cons, List.isPrefixOf_nil_left,
    Bool.and_true, Bool.beq_comm]

/-- The two kinds of brackets begin their lines as no other event does. -/
theorem lines_text (event : Event) :
    isHeaderLine event.text = (event.turn == 1) ∧ isValueLine event.text = (event.turn == -1) := by
  cases event with
  | constant index found =>
    obtain ⟨digit, rest, htext, hdigit⟩ := exists_text_constant index found
    have hletter : digit ≠ 'a' := by
      rintro rfl
      exact absurd hdigit (by decide)
    have htab : digit ≠ '\t' := by
      rintro rfl
      exact absurd hdigit (by decide)
    simp [isHeaderLine_of_ne htext hletter, isValueLine_eq htext, turn, htab]
  | methodStart access nameIndex descriptorIndex attributesCount =>
    have htext : (methodStart access nameIndex descriptorIndex attributesCount).text =
        "method access_flags=" ++ access.text ++ " name_index=" ++ toString nameIndex.toNat ++
          " descriptor_index=" ++ toString descriptorIndex.toNat ++ " attributes_count=" ++
          toString attributesCount.toNat := rfl
    rw [htext]
    simp [isHeaderLine, isValueLine, turn, List.isPrefixOf]
  | attributeStart name nameIndex length =>
    have htext : (attributeStart name nameIndex length).text =
        "attribute " ++ name ++ " (attribute_name_index=" ++ toString nameIndex.toNat ++
          ", attribute_length=" ++ toString length.toNat ++ ")" := rfl
    rw [htext]
    simp [isHeaderLine, isValueLine, turn, List.isPrefixOf]
  | attributeEnd found =>
    have htext : (attributeEnd found).text = "\t" ++ found.text := rfl
    rw [htext]
    simp [isHeaderLine, isValueLine, turn, List.isPrefixOf]
  | opened className path =>
    have htext : (opened className path).text =
        "reading " ++ className ++ " from " ++ path := rfl
    rw [htext]
    simp [isHeaderLine, isValueLine, turn, List.isPrefixOf]

theorem turn_cases (event : Event) : event.turn = 1 ∨ event.turn = -1 ∨ event.turn = 0 := by
  cases event <;> simp [turn]

/-- The depth can be read off the lines of a log. -/
theorem depth_eq_lines (log : List Event) :
    depth log = ((log.map text).countP isHeaderLine : Int) - (log.map text).countP isValueLine := by
  induction log with
  | nil => rfl
  | cons event log ih =>
    obtain ⟨hheader, hvalue⟩ := event.lines_text
    rw [depth_cons, ih, List.map_cons, List.countP_cons, List.countP_cons, hheader, hvalue]
    obtain hturn | hturn | hturn := event.turn_cases <;> simp [hturn] <;> omega

/-! ## Depths on the way -/

/-- The depth is never below zero and never above a bound. -/
def Within (bound : Nat) (log : List Event) : Prop :=
  ∀ front, front <+: log → 0 ≤ depth front ∧ depth front ≤ bound

theorem within_nil (bound : Nat) : Within bound [] := by
  intro front hfront
  rw [List.prefix_nil.mp hfront, depth_nil]
  omega

theorem Within.mono {bound larger : Nat} (hle : bound ≤ larger) {log : List Event}
    (hwithin : Within bound log) : Within larger log := by
  intro front hfront
  obtain ⟨hlow, hhigh⟩ := hwithin front hfront
  omega

/-- Behind a log that leaves no bracket open, another one starts from zero. -/
theorem Within.append {bound : Nat} {before after : List Event} (hbefore : Within bound before)
    (hclosed : depth before = 0) (hafter : Within bound after) :
    Within bound (before ++ after) := by
  intro front hfront
  obtain hinside | ⟨back, rfl⟩ :=
    List.prefix_or_prefix_of_prefix hfront (List.prefix_append before after)
  · exact hbefore front hinside
  · have hback : back <+: after := (List.prefix_append_right_inj before).mp hfront
    rw [depth_append, hclosed, Int.zero_add]
    exact hafter back hback

/-- A header opens one bracket more. -/
theorem Within.start {bound : Nat} {log : List Event} (hwithin : Within bound log) (name : String)
    (index : UInt16) (length : UInt32) :
    Within (bound + 1) (.attributeStart name index length :: log) := by
  intro front hfront
  obtain rfl | ⟨back, rfl, hback⟩ := List.prefix_cons_iff.mp hfront
  · rw [depth_nil]
    omega
  · obtain ⟨hlow, hhigh⟩ := hwithin back hback
    rw [depth_cons, turn]
    omega

/-- An attribute closes the bracket that its header has opened. -/
theorem Within.enclose {bound : Nat} {log : List Event} (hwithin : Within bound log)
    (hclosed : depth log = 0) (name : String) (index : UInt16) (length : UInt32)
    (item : Attribute) :
    Within (bound + 1) (.attributeStart name index length :: (log ++ [.attributeEnd item])) := by
  intro front hfront
  rw [← List.cons_append] at hfront
  obtain rfl | hinside := List.prefix_concat_iff.mp hfront
  · simp only [depth_append, depth_cons, depth_nil, turn, hclosed]
    omega
  · exact hwithin.start name index length front hinside

end Event

namespace Reader

variable {α β : Type} {bound : Nat}

open Event

/-- On every input the depth of the log stays within a bound, and where the reading succeeds, all
brackets are closed. -/
structure Bracketed (reader : Reader α) (bound : Nat) : Prop where
  within : ∀ bytes, Within bound (reader bytes).log
  closed : ∀ bytes value rest, reader.Gives bytes value rest → depth (reader bytes).log = 0

/-- In the lines of a log, whatever its result is, the headers before any point are the attributes
before it and at most so many more, and a reading that succeeds reports as many of the one as of
the other. -/
def BracketsLines (reader : Reader α) (bound : Nat) : Prop :=
  ∀ bytes, let lines := (reader bytes).log.map text
    (∀ front, front <+: lines →
      front.countP isValueLine ≤ front.countP isHeaderLine ∧
        front.countP isHeaderLine ≤ front.countP isValueLine + bound) ∧
    ∀ value, (reader bytes).result = .ok value →
      lines.countP isHeaderLine = lines.countP isValueLine

theorem Bracketed.bracketsLines {reader : Reader α} (hreader : reader.Bracketed bound) :
    reader.BracketsLines bound := by
  intro bytes
  constructor
  · intro front hfront
    obtain ⟨events, hevents, rfl⟩ := List.prefix_map_iff.mp hfront
    obtain ⟨hlow, hhigh⟩ := hreader.within bytes events hevents
    rw [depth_eq_lines] at hlow hhigh
    omega
  · intro value hresult
    have hclosed := hreader.closed bytes value _ ⟨hresult, rfl⟩
    rw [depth_eq_lines] at hclosed
    omega

/-! ## Composition -/

theorem Silent.bracketed {reader : Reader α} (hsilent : reader.Silent) (bound : Nat) :
    reader.Bracketed bound where
  within bytes := by
    rw [hsilent bytes]
    exact within_nil bound
  closed bytes _ _ _ := by
    rw [hsilent bytes, depth_nil]

theorem bracketed_pure (value : α) : (pure value : Reader α).Bracketed bound :=
  (silent_pure value).bracketed bound

theorem Bracketed.mono {reader : Reader α} {larger : Nat} (hle : bound ≤ larger)
    (hreader : reader.Bracketed bound) : reader.Bracketed larger where
  within bytes := (hreader.within bytes).mono hle
  closed := hreader.closed

theorem Bracketed.bind {first : Reader α} {next : α → Reader β} (hfirst : first.Bracketed bound)
    (hnext : ∀ value, (next value).Bracketed bound) : (first >>= next).Bracketed bound where
  within bytes := by
    have hbefore : Within bound (first bytes).log := hfirst.within bytes
    obtain ⟨found, middle, hfound⟩ | ⟨fault, middle, hfails⟩ := gives_or_fails first bytes
    · have hclosed : depth (first bytes).log = 0 := hfirst.closed bytes found middle hfound
      rw [bind_apply_of_ok hfound.outcome_eq]
      exact hbefore.append hclosed ((hnext found).within middle)
    · rw [bind_apply_of_error hfails.outcome_eq]
      exact hbefore
  closed bytes value rest hgives := by
    obtain ⟨found, middle, hfound, hvalue⟩ := gives_bind_iff.mp hgives
    have hbefore : depth (first bytes).log = 0 := hfirst.closed bytes found middle hfound
    have hafter : depth (next found middle).log = 0 := (hnext found).closed middle value rest hvalue
    rw [bind_apply_of_ok hfound.outcome_eq, depth_append, hbefore, hafter, Int.add_zero]

/-- A silent step in front changes nothing. -/
theorem Silent.bind_bracketed {first : Reader α} {next : α → Reader β} (hfirst : first.Silent)
    (hnext : ∀ value, (next value).Bracketed bound) : (first >>= next).Bracketed bound :=
  (hfirst.bracketed bound).bind hnext

theorem Bracketed.map {reader : Reader α} (hreader : reader.Bracketed bound) (view : α → β) :
    (view <$> reader).Bracketed bound := by
  rw [map_eq_pure_bind]
  exact hreader.bind fun value => bracketed_pure (view value)

/-- An event that is no bracket leaves the depth as it is. -/
theorem bracketed_report {event : Event} (hturn : event.turn = 0) :
    (report event).Bracketed bound where
  within bytes := by
    intro front hfront
    obtain rfl | ⟨back, rfl, hback⟩ := List.prefix_cons_iff.mp hfront
    · rw [depth_nil]
      omega
    · rw [List.prefix_nil.mp hback, depth_cons, depth_nil, hturn]
      omega
  closed _ _ _ _ := by simp [report, hturn]

theorem Bracketed.repeatedFrom {item : Nat → Reader α}
    (hitem : ∀ index, (item index).Bracketed bound) (index count : Nat) :
    (Reader.repeatedFrom index count item).Bracketed bound := by
  induction count generalizing index with
  | zero => exact bracketed_pure []
  | succ count ih =>
    rw [repeatedFrom_succ]
    exact (hitem index).bind fun _ => (ih (index + 1)).bind fun _ => bracketed_pure _

theorem Bracketed.repeated {item : Reader α} (hitem : item.Bracketed bound) (count : Nat) :
    (Reader.repeated count item).Bracketed bound :=
  .repeatedFrom (fun _ => hitem) 0 count

/-- The header of an attribute and the attribute itself enclose what is read between them. -/
theorem Bracketed.enclose {content : Reader Attribute} (hcontent : content.Bracketed bound)
    (name : String) (index : UInt16) (length : UInt32) :
    (do
      report (.attributeStart name index length)
      let found ← content
      report (.attributeEnd found)
      return found : Reader Attribute).Bracketed (bound + 1) where
  within bytes := by
    have hinside : Within bound (content bytes).log := hcontent.within bytes
    rw [report_bind]
    obtain ⟨found, rest, hfound⟩ | ⟨fault, rest, hfails⟩ := gives_or_fails content bytes
    · have hclosed : depth (content bytes).log = 0 := hcontent.closed bytes found rest hfound
      rw [bind_apply_of_ok hfound.outcome_eq]
      exact hinside.enclose hclosed name index length found
    · -- the reading stops inside the bracket
      rw [bind_apply_of_error hfails.outcome_eq]
      exact hinside.start name index length
  closed bytes value rest hgives := by
    have hfound : content.Gives bytes value rest := by
      simp only [gives_bind_iff, gives_report_iff, gives_pure_iff] at hgives
      obtain ⟨_, _, rfl, found, _, hfound, _, _, rfl, rfl, rfl⟩ := hgives
      exact hfound
    have hclosed : depth (content bytes).log = 0 := hcontent.closed bytes value rest hfound
    rw [report_bind, bind_apply_of_ok hfound.outcome_eq]
    change depth (.attributeStart name index length ::
      ((content bytes).log ++ [.attributeEnd value])) = 0
    simp [turn, hclosed]

end Reader

open Reader

/-! ## The parts of a class -/

theorem Pool.bracketed_read (count : UInt16) : (Pool.read count).Bracketed 0 := by
  have hentry (index : Nat) : (Constant.readEntry index).Bracketed 0 := by
    refine Constant.silent_read.bind_bracketed fun constant => ?_
    exact (bracketed_report rfl).bind fun _ => bracketed_pure constant
  exact (Bracketed.repeatedFrom hentry 1 _).bind fun _ => bracketed_pure _

namespace Attribute

theorem bracketed_readContent {body : Reader Code} {bound : Nat} (hbody : body.Bracketed bound)
    (length : UInt32) (kind : Kind) : (readContent body length kind).Bracketed bound := by
  cases kind with
  | code => exact hbody.bind fun _ => bracketed_pure _
  | sourceFile =>
    rw [readContent]
    split
    · exact silent_uint16.bind_bracketed fun _ => bracketed_pure _
    · exact (silent_fail _).bracketed bound
  | lineNumberTable => exact (silent_take _ _).bind_bracketed fun _ => bracketed_pure _
  | localVariableTable => exact (silent_take _ _).bind_bracketed fun _ => bracketed_pure _

/-- An attribute is one bracket around those inside its body. -/
theorem bracketed_readWith {body : Reader Code} {bound : Nat} (hbody : body.Bracketed bound)
    (pool : Pool) : (readWith body pool).Bracketed (bound + 1) := by
  refine silent_uint16.bind_bracketed fun index => silent_uint32.bind_bracketed fun length => ?_
  refine (silent_ofExcept _).bind_bracketed fun name => ?_
  cases Kind.ofName? name with
  | none =>
    -- behind the header of an unknown attribute, the reading is over
    have hfail : (fail (.unknownAttribute name) : Reader Attribute).Bracketed bound :=
      (silent_fail _).bracketed bound
    exact hfail.enclose name index length
  | some kind => exact (bracketed_readContent hbody length kind).enclose name index length

end Attribute

theorem Code.bracketed_read (pool : Pool) : (Code.read pool).Bracketed 1 := by
  have hnested : (Attribute.readNested pool).Bracketed 1 :=
    Attribute.bracketed_readWith ((silent_fail .nestedCode).bracketed 0) pool
  refine silent_uint16.bind_bracketed fun maxStack => ?_
  refine silent_uint16.bind_bracketed fun maxLocals => ?_
  refine silent_uint32.bind_bracketed fun codeLength => ?_
  refine (silent_take _ _).bind_bracketed fun bytecode => ?_
  refine silent_uint16.bind_bracketed fun handlersCount => ?_
  refine (silent_handler.repeated _).bind_bracketed fun handlers => ?_
  refine silent_uint16.bind_bracketed fun attributesCount => ?_
  exact (hnested.repeated _).bind fun _ => bracketed_pure _

theorem Attribute.bracketed_read (pool : Pool) : (Attribute.read pool).Bracketed 2 :=
  bracketed_readWith (Code.bracketed_read pool) pool

theorem Attribute.bracketed_readAll (count : UInt16) (pool : Pool) :
    (Attribute.readAll count pool).Bracketed 2 :=
  (Attribute.bracketed_read pool).repeated _

theorem Method.bracketed_read (pool : Pool) : (Method.read pool).Bracketed 2 := by
  refine silent_access.bind_bracketed fun access => silent_uint16.bind_bracketed fun nameIndex => ?_
  refine silent_uint16.bind_bracketed fun descriptorIndex => ?_
  refine silent_uint16.bind_bracketed fun attributesCount => ?_
  refine (bracketed_report rfl).bind fun _ => ?_
  exact (Attribute.bracketed_readAll _ pool).bind fun _ => bracketed_pure _

theorem Layout.bracketed_read (layout : Layout) : layout.read.Bracketed 2 := by
  have hpool (count : UInt16) : (Pool.read count).Bracketed 2 :=
    (Pool.bracketed_read count).mono (by omega)
  -- the header and the constants
  refine (silent_expectHeader _).bind_bracketed fun _ => ?_
  refine (silent_expect _ _).bind_bracketed fun count => (hpool count).bind fun pool => ?_
  -- the six numbers in front of the constructor
  refine (silent_expectAccess _ _).bind_bracketed fun access => ?_
  refine (silent_expect _ _).bind_bracketed fun thisClass => ?_
  refine (silent_expect _ _).bind_bracketed fun superClass => ?_
  refine (silent_expect _ _).bind_bracketed fun interfacesCount => ?_
  refine (silent_expect _ _).bind_bracketed fun fieldsCount => ?_
  refine (silent_expect _ _).bind_bracketed fun methodsCount => ?_
  -- the constructor and the attributes, each with the checks behind it
  refine (Method.bracketed_read pool).bind fun method => ?_
  refine (silent_checkAll _).bind_bracketed fun _ => ?_
  refine (silent_expect _ _).bind_bracketed fun count => ?_
  refine (Attribute.bracketed_readAll count pool).bind fun attributes => ?_
  exact (silent_checkAll _).bind_bracketed fun _ => bracketed_pure _

theorem Step.bracketed_reader (step : Step) : step.reader.Bracketed 2 := by
  match step with
  | .header => exact ((silent_take _ _).bracketed 2).map _
  | .uint8 => exact (silent_uint8.bracketed 2).map _
  | .uint16 => exact (silent_uint16.bracketed 2).map _
  | .uint32 => exact (silent_uint32.bracketed 2).map _
  | .pool count => exact ((Pool.bracketed_read count).mono (by omega)).map _
  | .method constants => exact (Method.bracketed_read constants).map _
  | .attribute constants => exact (Attribute.bracketed_read constants).map _
  | .attributes count constants => exact (Attribute.bracketed_readAll count constants).map _

end ClassAudit
