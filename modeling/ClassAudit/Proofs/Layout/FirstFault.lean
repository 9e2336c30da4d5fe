import ClassAudit.Proofs.Layout.Grammar

/-!
# The first difference is the one reported

A file that is spelled out like a class with one method (`FoundClass.Written`), but with any values
in it, is read up to the first field that differs from the layout.  `read_reports_first_difference`
gives the fault: a header that differs comes first, and then, of all 24 checked fields, the first
one in the order of `Field.all`, with the value of the layout and the value of the file.

## Strategy

`Layout.expected` and `FoundClass.actual` give the two values of every field, without regard to
when the field is read.  The reading itself is described by `Check.verdict`, which makes a list of
checks and then goes on: `result_expect_bind` and `result_checkAll_bind` turn every check of the
reading into a verdict, in whatever order reading and checking alternate, and `verdict_append` joins
the verdicts into a single one over all fields.

One thing does not fit into a list made beforehand.  A method without a body has no values for the
fields of a body, and the reading does not check them.  It does not have to: the check on the kind
of the first attribute has failed by then, and behind a failed check a verdict looks at nothing
(`verdict_append_of_failure`).
-/

namespace ClassAudit

/-! ## Checks in a row -/

namespace Check

variable {α : Type}

/-- The fault of the first check that fails, or what comes behind all of them. -/
def verdict (checks : List Check) (later : Except Fault α) : Except Fault α :=
  match firstFailure? checks with
  | none => later
  | some failed => .error (.mismatch failed)

@[simp] theorem verdict_nil (later : Except Fault α) : verdict [] later = later := rfl

theorem verdict_cons (check : Check) (others : List Check) (later : Except Fault α) :
    verdict (check :: others) later =
      if check.expected = check.actual then verdict others later
      else .error (.mismatch check) := by
  by_cases hpasses : check.expected = check.actual <;>
    simp [verdict, firstFailure?, passes, hpasses]

theorem verdict_append (front back : List Check) (later : Except Fault α) :
    verdict (front ++ back) later = verdict front (verdict back later) := by
  induction front with
  | nil => rfl
  | cons check others ih => rw [List.cons_append, verdict_cons, verdict_cons, ih]

/-- Behind a check that fails, nothing is looked at. -/
theorem verdict_append_of_failure {front : List Check} {failing : Check} (hmem : failing ∈ front)
    (hfails : failing.expected ≠ failing.actual) (back : List Check) (later : Except Fault α) :
    verdict (front ++ back) later = verdict front later := by
  induction front with
  | nil => simp at hmem
  | cons check others ih =>
    rw [List.cons_append, verdict_cons, verdict_cons]
    split
    · next hpasses =>
      rcases List.mem_cons.mp hmem with rfl | hmem
      · exact absurd hpasses hfails
      · exact ih hmem
    · rfl

end Check

namespace Reader

variable {α : Type}

theorem result_checkAll_bind (made : List Check) (next : Unit → Reader α) (bytes : Bytes) :
    ((checkAll made >>= next) bytes).result = Check.verdict made (next () bytes).result := by
  unfold checkAll Check.verdict
  cases Check.firstFailure? made with
  | none => rfl
  | some failed => rfl

theorem result_check_bind (made : Check) (next : Unit → Reader α) (bytes : Bytes) :
    ((check made >>= next) bytes).result = Check.verdict [made] (next () bytes).result := by
  rw [check, Check.verdict_cons]
  by_cases hpasses : made.expected = made.actual
  · simp only [Check.passes, hpasses, decide_true, if_true, Check.verdict_nil]
    rfl
  · simp only [Check.passes, hpasses, decide_false, if_false, Bool.false_eq_true]
    rfl

/-- A number that is checked as it comes: the reading goes on with the number that was found. -/
theorem result_expect_bind (field : Field) (expected actual : UInt16) (next : UInt16 → Reader α)
    (rest : Bytes) :
    ((expect field expected >>= next) (Bytes.ofUInt16 actual ++ rest)).result =
      Check.verdict [.number field expected.toNat actual.toNat] (next actual rest).result := by
  simp only [expect, bind_assoc, pure_bind]
  rw [(gives_uint16_iff.mpr rfl).result_bind, result_check_bind]

theorem result_expectAccess_bind (field : Field) (expected actual : Access)
    (next : Access → Reader α) (rest : Bytes) :
    ((expectAccess field expected >>= next) (Bytes.ofUInt16 actual.bits ++ rest)).result =
      Check.verdict [⟨field, .access expected, .access actual⟩] (next actual rest).result := by
  simp only [expectAccess, bind_assoc, pure_bind]
  rw [(gives_access_iff.mpr rfl).result_bind, result_check_bind]

theorem result_expectHeader_bind_of_ne {expected actual : Bytes} (height : actual.length = 8)
    (hdiffer : actual ≠ expected) (next : Unit → Reader α) (rest : Bytes) :
    ((expectHeader expected >>= next) (actual ++ rest)).result =
      .error (.header expected actual) := by
  simp only [expectHeader, header, bind_assoc]
  rw [(gives_take_iff.mpr ⟨height, rfl⟩).result_bind, if_neg hdiffer]
  rfl

end Reader

/-! ## The fields and their values -/

namespace Field

/-- The fields in front of the method. -/
def ofClass : List Field :=
  [constantPoolCount, accessFlags, thisClass, superClass, interfacesCount, fieldsCount,
    methodsCount]

/-- The fields of the method, with the kind of its first attribute. -/
def ofMethod : List Field :=
  [methodAccessFlags, methodNameIndex, methodDescriptorIndex, methodAttributesCount,
    methodAttribute]

/-- The fields of the body of the method. -/
def ofBody : List Field :=
  [maxStack, maxLocals, codeLength, handlersCount, codeAttributesCount, firstOpcode, secondOpcode,
    calledConstructor, lastOpcode]

/-- The fields of the attributes of the class. -/
def ofAttributes : List Field := [attributesCount, classAttribute, sourceFileIndex]

/-- All fields, in the order in which they are held against a layout. -/
def all : List Field := ofClass ++ ofMethod ++ ofBody ++ ofAttributes

/-- The order leaves out no field. -/
theorem mem_all (field : Field) : field ∈ all := by
  cases field <;> decide

/-- The names by which mismatches are reported, in the same order. -/
theorem map_name_all : all.map name =
    ["constant_pool_count", "access_flags", "this_class", "super_class", "interfaces_count",
      "fields_count", "methods_count", "method access_flags", "method name_index",
      "method descriptor_index", "method attributes_count", "method attributes[0]", "max_stack",
      "max_locals", "code_length", "exception_table_length", "code attributes_count", "code[0]",
      "code[1]", "invokespecial index", "code[4]", "attributes_count", "attributes[0]",
      "sourcefile_index"] :=
  rfl

end Field

/-- The value that a layout fixes for a field. -/
def Layout.expected (layout : Layout) : Field → Value
  | .constantPoolCount => .number layout.constantPoolCount.toNat
  | .accessFlags => .access layout.access
  | .thisClass => .number layout.thisClass.toNat
  | .superClass => .number layout.superClass.toNat
  | .interfacesCount => .number 0
  | .fieldsCount => .number 0
  | .methodsCount => .number 1
  | .methodAccessFlags => .access layout.constructor.access
  | .methodNameIndex => .number layout.constructor.nameIndex.toNat
  | .methodDescriptorIndex => .number layout.constructor.descriptorIndex.toNat
  | .methodAttributesCount => .number 1
  | .methodAttribute => .attributeKind .code
  | .maxStack => .number layout.constructor.maxStack.toNat
  | .maxLocals => .number layout.constructor.maxLocals.toNat
  | .codeLength => .number 5
  | .handlersCount => .number 0
  | .codeAttributesCount => .number layout.constructor.codeAttributesCount.toNat
  | .firstOpcode => .opcode .loadThis
  | .secondOpcode => .opcode .callConstructor
  | .calledConstructor => .number layout.constructor.superConstructorIndex.toNat
  | .lastOpcode => .opcode .returnVoid
  | .attributesCount => .number 1
  | .classAttribute => .attributeKind .sourceFile
  | .sourceFileIndex => .number layout.sourceFileIndex.toNat

/-- What a file with one method holds, whatever a layout says of it. -/
structure FoundClass where
  header : Bytes
  poolCount : UInt16
  pool : Pool
  access : Access
  thisClass : UInt16
  superClass : UInt16
  interfacesCount : UInt16
  fieldsCount : UInt16
  methodsCount : UInt16
  method : Method
  attributes : List Attribute

namespace FoundClass

/-- The body of the method, if its first attribute is one. -/
def body? (found : FoundClass) : Option Code :=
  found.method.attributes.head?.bind Attribute.code?

/-- A value of the body, or nothing where there is no body. -/
def ofBody (found : FoundClass) (view : Code → Value) : Value :=
  match found.body? with
  | some code => view code
  | none => .nothing

/-- The value of a field in the file. -/
def actual (found : FoundClass) : Field → Value
  | .constantPoolCount => .number found.poolCount.toNat
  | .accessFlags => .access found.access
  | .thisClass => .number found.thisClass.toNat
  | .superClass => .number found.superClass.toNat
  | .interfacesCount => .number found.interfacesCount.toNat
  | .fieldsCount => .number found.fieldsCount.toNat
  | .methodsCount => .number found.methodsCount.toNat
  | .methodAccessFlags => .access found.method.access
  | .methodNameIndex => .number found.method.nameIndex.toNat
  | .methodDescriptorIndex => .number found.method.descriptorIndex.toNat
  | .methodAttributesCount => .number found.method.attributes.length
  | .methodAttribute => .ofAttribute? found.method.attributes.head?
  | .maxStack => found.ofBody fun code => .number code.maxStack.toNat
  | .maxLocals => found.ofBody fun code => .number code.maxLocals.toNat
  | .codeLength => found.ofBody fun code => .number code.bytecode.length
  | .handlersCount => found.ofBody fun code => .number code.handlers.length
  | .codeAttributesCount => found.ofBody fun code => .number code.attributes.length
  | .firstOpcode => found.ofBody fun code => .ofOpcode? code.bytecode[0]?
  | .secondOpcode => found.ofBody fun code => .ofOpcode? code.bytecode[1]?
  | .calledConstructor =>
    found.ofBody fun code => .ofOperand? code.bytecode[2]? code.bytecode[3]?
  | .lastOpcode => found.ofBody fun code => .ofOpcode? code.bytecode[4]?
  | .attributesCount => .number found.attributes.length
  | .classAttribute => .ofAttribute? found.attributes.head?
  | .sourceFileIndex =>
    match found.attributes.head?.bind Attribute.sourceFile? with
    | some nameIndex => .number nameIndex.toNat
    | none => .nothing

/-- The fields between the constants and the method. -/
def middle (found : FoundClass) : Bytes :=
  Bytes.ofUInt16 found.access.bits ++ Bytes.ofUInt16 found.thisClass ++
    Bytes.ofUInt16 found.superClass ++ Bytes.ofUInt16 found.interfacesCount ++
    Bytes.ofUInt16 found.fieldsCount ++ Bytes.ofUInt16 found.methodsCount

/-- The bytes spell out a class with one method: the counts in front of the constants and of the
attributes are those of what follows, and everything else has whatever value it has. -/
structure Written (found : FoundClass) (bytes : Bytes) : Prop where
  header_length : found.header.length = 8
  counted : found.pool.size = found.poolCount.toNat - 1
  attributes_short : found.attributes.length < 65536
  spelled : ∃ constants method attributes,
    Written.Sequence Constant.Written found.pool.toList constants ∧
    Method.Written found.pool found.method method ∧
    Written.Sequence (Attribute.Written found.pool) found.attributes attributes ∧
    bytes = found.header ++ Bytes.ofUInt16 found.poolCount ++ constants ++ found.middle ++
      method ++ Bytes.ofUInt16 (.ofNat found.attributes.length) ++ attributes

/-- The class that is given where nothing differs from a layout. -/
def compiled (found : FoundClass) (layout : Layout) : CompiledClass where
  majorVersion := layout.majorVersion
  minorVersion := layout.minorVersion
  pool := found.pool
  access := found.access
  thisClass := found.thisClass
  superClass := found.superClass
  interfacesCount := found.interfacesCount
  fieldsCount := found.fieldsCount
  methods := [found.method]
  attributes := found.attributes

end FoundClass

/-! ## The reading as one verdict -/

namespace Layout

variable {α : Type} {layout : Layout} {found : FoundClass}

/-- The check that holds a layout against a file in one field. -/
def check (layout : Layout) (found : FoundClass) (field : Field) : Check :=
  ⟨field, layout.expected field, found.actual field⟩

/-- A method has a body if and only if its check on the kind of the first attribute passes. -/
theorem expected_methodAttribute_eq_iff :
    layout.expected .methodAttribute = found.actual .methodAttribute ↔ found.body?.isSome := by
  simp only [expected, FoundClass.actual, FoundClass.body?]
  cases found.method.attributes.head? with
  | none => simp [Value.ofAttribute?]
  | some item => cases item <;> simp [Value.ofAttribute?, Attribute.kind, Attribute.code?]

/-- The checks on a constructor are those on the fields of the method, and then those on the body
if there is one. -/
theorem constructor_checks_eq :
    layout.constructor.checks found.method =
      Field.ofMethod.map (layout.check found) ++
        (found.body?.map layout.constructor.codeChecks).getD [] := by
  unfold ConstructorLayout.checks FoundClass.body?
  congr 1
  cases found.method.attributes.head? with
  | none => rfl
  | some item => cases item <;> rfl

theorem ofBody_checks_eq {code : Code} (hbody : found.body? = some code) :
    Field.ofBody.map (layout.check found) = layout.constructor.codeChecks code := by
  simp [Field.ofBody, check, expected, FoundClass.actual, FoundClass.ofBody, hbody,
    ConstructorLayout.codeChecks, Check.number]

/-- Without a body there are fewer checks than fields, but then the last one on the method has
failed. -/
theorem verdict_constructor_checks (later : Except Fault α) :
    Check.verdict (layout.constructor.checks found.method) later =
      Check.verdict ((Field.ofMethod ++ Field.ofBody).map (layout.check found)) later := by
  rw [constructor_checks_eq, List.map_append]
  cases hbody : found.body? with
  | none =>
    have hmem : layout.check found .methodAttribute ∈ Field.ofMethod.map (layout.check found) :=
      List.mem_map_of_mem (by decide)
    have hfails : layout.expected .methodAttribute ≠ found.actual .methodAttribute := by
      rw [Ne, expected_methodAttribute_eq_iff, hbody]
      simp
    rw [Check.verdict_append_of_failure hmem hfails, Check.verdict_append_of_failure hmem hfails]
  | some code =>
    rw [ofBody_checks_eq hbody]
    rfl

/-- The same for the attributes of the class: without the name of a source file, the check on the
kind of the first attribute fails. -/
theorem verdict_attributes_checks (later : Except Fault α) :
    Check.verdict [.number .attributesCount 1 found.attributes.length]
        (Check.verdict (layout.attributeChecks found.attributes) later) =
      Check.verdict (Field.ofAttributes.map (layout.check found)) later := by
  unfold attributeChecks Check.firstAttribute Field.ofAttributes
  simp only [List.map_cons, List.map_nil, check, expected, FoundClass.actual, Check.number]
  cases found.attributes.head? with
  | none => simp [Check.verdict_cons, Value.ofAttribute?]
  | some item =>
    cases item <;>
      simp [Check.verdict_cons, Value.ofAttribute?, Attribute.kind, Attribute.sourceFile?]

/-- Where the header is as it should be, the reading of a written class is one verdict over all
fields. -/
theorem result_read_of_written {bytes : Bytes} (trailing : Bytes) (hwritten : found.Written bytes)
    (hheader : found.header = layout.header) :
    (layout.read (bytes ++ trailing)).result =
      Check.verdict (Field.all.map (layout.check found)) (.ok (found.compiled layout)) := by
  obtain ⟨constants, method, attributes, hconstants, hmethod, hattributes, rfl⟩ := hwritten.spelled
  have hfirst (rest : Bytes) :
      (Reader.expectHeader layout.header).Gives (layout.header ++ rest) () rest :=
    (Reader.gives_expectHeader_iff length_header).mpr rfl
  have hpool (rest : Bytes) :
      (Pool.read found.poolCount).Gives (constants ++ rest) found.pool rest :=
    (Pool.reads_read _ _ _ _).mpr ⟨constants, rfl, hwritten.counted, hconstants⟩
  have hconstructor (rest : Bytes) :
      (Method.read found.pool).Gives (method ++ rest) found.method rest :=
    (Method.reads_read _ _ _ _).mpr ⟨method, rfl, hmethod⟩
  have hcount : (UInt16.ofNat found.attributes.length).toNat = found.attributes.length :=
    UInt16.toNat_ofNat_of_lt' hwritten.attributes_short
  have hall (rest : Bytes) :
      (Attribute.readAll (.ofNat found.attributes.length) found.pool).Gives (attributes ++ rest)
        found.attributes rest :=
    (Attribute.reads_readAll _ _ _ _ _).mpr ⟨attributes, rfl, hcount.symm, hattributes⟩
  simp only [FoundClass.middle, List.append_assoc, hheader]
  rw [Layout.read, (hfirst _).result_bind, Reader.result_expect_bind, (hpool _).result_bind]
  -- the six numbers in front of the method
  rw [Reader.result_expectAccess_bind, Reader.result_expect_bind, Reader.result_expect_bind,
    Reader.result_expect_bind, Reader.result_expect_bind, Reader.result_expect_bind]
  -- the method and the attributes, with the checks behind each
  rw [(hconstructor _).result_bind, Reader.result_checkAll_bind, Reader.result_expect_bind,
    (hall _).result_bind, Reader.result_checkAll_bind, hcount, verdict_constructor_checks]
  rw [show (1 : UInt16).toNat = 1 from rfl, verdict_attributes_checks]
  simp only [← Check.verdict_append]
  rfl

/-- **The first difference is the one reported.**  Of a written class whose header is another one,
just that is reported.  Otherwise the fault is the mismatch in the first field, in the order of
`Field.all`, in which the file has another value than the layout, with both values; where there is
no such field, the class is given as it was found. -/
theorem read_reports_first_difference (layout : Layout) (found : FoundClass) {bytes : Bytes}
    (trailing : Bytes) (hwritten : found.Written bytes) :
    (layout.read (bytes ++ trailing)).result =
      if found.header = layout.header then
        match Field.all.find? fun field => layout.expected field ≠ found.actual field with
        | some field => .error (.mismatch ⟨field, layout.expected field, found.actual field⟩)
        | none => .ok (found.compiled layout)
      else .error (.header layout.header found.header) := by
  split
  · next hheader =>
    rw [result_read_of_written trailing hwritten hheader, Check.verdict, Check.firstFailure?,
      List.find?_map]
    have hdiffers : ((fun check : Check => !check.passes) ∘ layout.check found) =
        fun field => decide (layout.expected field ≠ found.actual field) := by
      funext field
      rw [decide_not]
      rfl
    rw [hdiffers]
    cases Field.all.find? fun field => decide (layout.expected field ≠ found.actual field) with
    | none => rfl
    | some field => rfl
  · next hheader =>
    obtain ⟨constants, method, attributes, -, -, -, rfl⟩ := hwritten.spelled
    simp only [List.append_assoc]
    exact Reader.result_expectHeader_bind_of_ne hwritten.header_length hheader _ _

/-- A class whose constructor has another name, another stack and no tables, and whose source file
is somewhere else. -/
def misnamed : FoundClass where
  header := Layout.standard.header
  poolCount := 3
  pool := .ofList [.utf8 "Code", .utf8 "SourceFile"]
  access := Layout.standard.access
  thisClass := 2
  superClass := 3
  interfacesCount := 0
  fieldsCount := 0
  methodsCount := 1
  method := ⟨ConstructorLayout.standard.access, 9, 5,
    [.code ⟨7, 1, [0x2A, 0xB7, 0x00, 0x01, 0xB1], [], []⟩]⟩
  attributes := [.sourceFile 13]

/-- The bytes of that class. -/
def misnamedBytes : Bytes :=
  [0xCA, 0xFE, 0xBA, 0xBE, 0x00, 0x00, 0x00, 0x31, 0x00, 0x03,
    0x01, 0x00, 0x04, 0x43, 0x6F, 0x64, 0x65,
    0x01, 0x00, 0x0A, 0x53, 0x6F, 0x75, 0x72, 0x63, 0x65, 0x46, 0x69, 0x6C, 0x65,
    0x00, 0x21, 0x00, 0x02, 0x00, 0x03, 0x00, 0x00, 0x00, 0x00, 0x00, 0x01,
    0x00, 0x01, 0x00, 0x09, 0x00, 0x05, 0x00, 0x01, 0x00, 0x01, 0x00, 0x00, 0x00, 0x00,
    0x00, 0x07, 0x00, 0x01, 0x00, 0x00, 0x00, 0x05, 0x2A, 0xB7, 0x00, 0x01, 0xB1,
    0x00, 0x00, 0x00, 0x00, 0x00, 0x01, 0x00, 0x02, 0x00, 0x00, 0x00, 0x02, 0x00, 0x0D]

theorem misnamed_written : misnamed.Written misnamedBytes where
  header_length := rfl
  counted := rfl
  attributes_short := by decide
  spelled := by
    have hcode := @Constant.Written.utf8 "Code" [0x43, 0x6F, 0x64, 0x65] (by decide) (by decide)
    have hsource := @Constant.Written.utf8 "SourceFile"
      [0x53, 0x6F, 0x75, 0x72, 0x63, 0x65, 0x46, 0x69, 0x6C, 0x65] (by decide) (by decide)
    have hbody : Code.Written misnamed.pool ⟨7, 1, [0x2A, 0xB7, 0x00, 0x01, 0xB1], [], []⟩ _ :=
      ⟨by decide, by decide, by decide, [], .nil, rfl⟩
    have hmethod := @Attribute.Written.code misnamed.pool 1 0 _ _ rfl hbody
    have hfile := @Attribute.WrittenNested.sourceFile misnamed.pool 2 13 rfl
    exact ⟨_, _, _, .cons hcode (.cons hsource .nil), ⟨by decide, _, .cons hmethod .nil, rfl⟩,
      .cons (.other hfile) .nil, rfl⟩

theorem read_misnamed :
    misnamed.Written misnamedBytes ∧
      (Layout.read { Layout.standard with constantPoolCount := 3 }
          (misnamedBytes ++ [0xFF])).result =
        .error (.mismatch ⟨.methodNameIndex, .number 4, .number 9⟩) :=
  ⟨misnamed_written, (read_reports_first_difference _ misnamed [0xFF] misnamed_written).trans rfl⟩

end Layout

end ClassAudit
