import ClassAudit.Proofs.Layout.Satisfiable

/-!
# What success asks of the constant pool

Reading an attribute looks one text up, and goes on only if the text is one of the four names.  So a
reading that succeeds has seen nothing of the pool but these names, and succeeds in the same way
with any other pool that has them at the same indices (`success_depends_on_names_only`).  For a
class this means that every other entry may be written anew: the class is still accepted, and it
differs from the first one in its pool only.

## Strategy

`first.ExtendedBy second` relates two readings of the same bytes: where the first reader succeeds,
the second one has the same outcome, events included.  The relation passes through `>>=`, hence
through repetition, and a reader that never succeeds is extended by every other one.  So the two
pools are followed through an attribute (`Attribute.readWith_extendedBy`), and from there through
bodies, lists of attributes and methods.

The file of a class has to be put together again, because its pool has another length once it is
changed.  What stands behind the pool is still a written form under the new pool
(`Reads.form_of_extendedBy`), so the grammar of a layout accepts it.
-/

namespace ClassAudit

/-- Another pool has the names of attributes where this one has them.  It may differ in every other
entry, and in their number. -/
def Pool.AgreesOnNames (pool other : Pool) : Prop :=
  ∀ (kind : Attribute.Kind) (index : UInt16),
    pool.get? index = some (.utf8 kind.name) → other.get? index = pool.get? index

/-! ## Readers that do the same where one of them succeeds -/

namespace Reader

variable {α β : Type}

/-- Where the first reader succeeds, the second one has the same outcome. -/
def ExtendedBy (first second : Reader α) : Prop :=
  ∀ bytes value, (first bytes).result = .ok value → second bytes = first bytes

theorem ExtendedBy.refl (reader : Reader α) : reader.ExtendedBy reader := fun _ _ _ => rfl

/-- A reader that never succeeds asks nothing of another one. -/
theorem extendedBy_of_not_gives {first : Reader α} (second : Reader α)
    (hnever : ∀ bytes value rest, ¬ first.Gives bytes value rest) : first.ExtendedBy second := by
  intro bytes value hresult
  exact absurd ⟨hresult, rfl⟩ (hnever bytes value (first bytes).rest)

theorem ExtendedBy.bind {first second : Reader α} {next other : α → Reader β}
    (hfirst : first.ExtendedBy second) (hnext : ∀ value, (next value).ExtendedBy (other value)) :
    (first >>= next).ExtendedBy (second >>= other) := by
  intro bytes value hresult
  obtain ⟨found, middle, hfound, hvalue⟩ := gives_bind_iff.mp ⟨hresult, rfl⟩
  have hsame : second bytes = first bytes := hfirst bytes found hfound.1
  cases houtcome : first bytes with
  | mk result rest log =>
    obtain ⟨rfl, rfl⟩ : result = .ok found ∧ rest = middle := by
      rw [Gives, houtcome] at hfound
      exact hfound
    have hlater : other found rest = next found rest := hnext found rest value hvalue.1
    rw [bind_apply_of_ok houtcome, bind_apply_of_ok (hsame.trans houtcome), hlater]

theorem ExtendedBy.repeated {first second : Reader α} (hitem : first.ExtendedBy second)
    (count : Nat) : (Reader.repeated count first).ExtendedBy (Reader.repeated count second) := by
  induction count with
  | zero => exact .refl _
  | succ count ih =>
    rw [repeated_succ, repeated_succ]
    exact hitem.bind fun _ => ih.bind fun _ => .refl _

theorem ExtendedBy.gives {first second : Reader α} (hextended : first.ExtendedBy second)
    {bytes rest : Bytes} {value : α} (hgives : first.Gives bytes value rest) :
    second.Gives bytes value rest := by
  have hsame : second bytes = first bytes := hextended bytes value hgives.1
  rw [Gives, hsame]
  exact hgives

/-- What is written for a reader is written for one that extends it. -/
theorem Reads.form_of_extendedBy {first second : Reader α} {Form Other : α → Bytes → Prop}
    (hfirst : first.Reads Form) (hsecond : second.Reads Other)
    (hextended : first.ExtendedBy second) {value : α} {bytes : Bytes} (hform : Form value bytes) :
    Other value bytes := by
  have hgives : first.Gives bytes value [] :=
    (hfirst _ _ _).mpr ⟨bytes, (List.append_nil _).symm, hform⟩
  obtain ⟨front, hbytes, hother⟩ := (hsecond _ _ _).mp (hextended.gives hgives)
  rw [List.append_nil] at hbytes
  rw [hbytes]
  exact hother

end Reader

/-! ## Attributes and methods under two pools -/

variable {pool other : Pool} (hnames : pool.AgreesOnNames other)
include hnames

namespace Attribute

/-- The one look-up: a name that is not one of the four ends the reading under the first pool, and
one of the four is found in the second pool as well. -/
theorem readWith_extendedBy {body otherBody : Reader Code} (hbody : body.ExtendedBy otherBody) :
    (readWith body pool).ExtendedBy (readWith otherBody other) := by
  refine (Reader.ExtendedBy.refl Reader.uint16).bind fun index => ?_
  refine (Reader.ExtendedBy.refl Reader.uint32).bind fun length => ?_
  cases hname : pool.text index with
  | error fault =>
    apply Reader.extendedBy_of_not_gives
    intro bytes value rest hgives
    obtain ⟨_, _, hfound, -⟩ := Reader.gives_bind_iff.mp hgives
    exact Reader.not_gives_fail hfound
  | ok name =>
    cases hkind : Kind.ofName? name with
    | none =>
      apply Reader.extendedBy_of_not_gives
      intro bytes value rest hgives
      obtain ⟨found, _, hfound, hlater⟩ := Reader.gives_bind_iff.mp hgives
      obtain ⟨hfound, -⟩ := Reader.gives_ofExcept_iff.mp hfound
      cases hfound
      obtain ⟨_, _, -, hlater⟩ := Reader.gives_bind_iff.mp hlater
      rw [hkind] at hlater
      exact Reader.not_gives_fail hlater
    | some kind =>
      have hentry : pool.get? index = some (.utf8 kind.name) := by
        rw [Pool.text_eq_ok_iff.mp hname, Kind.ofName?_eq_some_iff.mp hkind]
      have hother : other.text index = .ok name := by
        rw [Pool.text_eq_ok_iff, hnames kind index hentry, Pool.text_eq_ok_iff.mp hname]
      rw [hother]
      refine (Reader.ExtendedBy.refl _).bind fun found => ?_
      refine (Reader.ExtendedBy.refl _).bind fun _ => ?_
      cases Kind.ofName? found with
      | none => exact .refl _
      | some foundKind =>
        refine Reader.ExtendedBy.bind ?_ fun item => .refl _
        cases foundKind with
        | code => exact hbody.bind fun code => .refl _
        | sourceFile => exact .refl _
        | lineNumberTable => exact .refl _
        | localVariableTable => exact .refl _

theorem readNested_extendedBy : (readNested pool).ExtendedBy (readNested other) :=
  readWith_extendedBy hnames (.refl _)

end Attribute

theorem Code.read_extendedBy : (Code.read pool).ExtendedBy (Code.read other) := by
  have hnested := Attribute.readNested_extendedBy hnames
  refine (Reader.ExtendedBy.refl _).bind fun maxStack => ?_
  refine (Reader.ExtendedBy.refl _).bind fun maxLocals => ?_
  refine (Reader.ExtendedBy.refl _).bind fun codeLength => ?_
  refine (Reader.ExtendedBy.refl _).bind fun bytecode => ?_
  refine (Reader.ExtendedBy.refl _).bind fun handlersCount => ?_
  refine (Reader.ExtendedBy.refl _).bind fun handlers => ?_
  refine (Reader.ExtendedBy.refl _).bind fun attributesCount => ?_
  exact (hnested.repeated _).bind fun attributes => .refl _

namespace Attribute

theorem read_extendedBy : (Attribute.read pool).ExtendedBy (Attribute.read other) :=
  readWith_extendedBy hnames (Code.read_extendedBy hnames)

theorem readAll_extendedBy (count : UInt16) :
    (Attribute.readAll count pool).ExtendedBy (Attribute.readAll count other) :=
  (read_extendedBy hnames).repeated count.toNat

theorem written_of_agreesOnNames {item : Attribute} {bytes : Bytes}
    (hwritten : Attribute.Written pool item bytes) : Attribute.Written other item bytes :=
  (reads_read pool).form_of_extendedBy (reads_read other) (read_extendedBy hnames) hwritten

end Attribute

namespace Method

theorem read_extendedBy : (Method.read pool).ExtendedBy (Method.read other) := by
  refine (Reader.ExtendedBy.refl _).bind fun access => ?_
  refine (Reader.ExtendedBy.refl _).bind fun nameIndex => ?_
  refine (Reader.ExtendedBy.refl _).bind fun descriptorIndex => ?_
  refine (Reader.ExtendedBy.refl _).bind fun attributesCount => ?_
  refine (Reader.ExtendedBy.refl _).bind fun _ => ?_
  exact (Attribute.readAll_extendedBy hnames _).bind fun attributes => .refl _

theorem written_of_agreesOnNames {method : Method} {bytes : Bytes}
    (hwritten : Method.Written pool method bytes) : Method.Written other method bytes :=
  (reads_read pool).form_of_extendedBy (reads_read other) (read_extendedBy hnames) hwritten

end Method

/-! ## Classes under two pools -/

namespace Layout

variable {layout : Layout} {compiled : CompiledClass} {bytes rest : Bytes}

/-- The constants of an accepted class stand behind its header and its count, and other constants
may stand in their place. -/
theorem gives_read_of_agreesOnNames (hsize : other.size = pool.size)
    (hgives : layout.read.Gives bytes compiled rest) (hpool : compiled.pool = pool) :
    ∃ constants later,
      bytes = layout.header ++ Bytes.ofUInt16 layout.constantPoolCount ++ constants ++ later ∧
      Written.Sequence Constant.Written pool.toList constants ∧
      ∀ replaced, Written.Sequence Constant.Written other.toList replaced →
        layout.read.Gives
          (layout.header ++ Bytes.ofUInt16 layout.constantPoolCount ++ replaced ++ later)
          { compiled with pool := other } rest := by
  rw [header_eq_opening]
  obtain ⟨found, code, front, rfl, hwritten, rfl⟩ := gives_read_iff.mp hgives
  obtain rfl : found = pool := hpool
  obtain ⟨constants, constructor, sourceFile, hconstants, hconstructor, hsourceFile, rfl⟩ :=
    hwritten.spelled
  refine ⟨constants, layout.middle ++ constructor ++ Bytes.ofUInt16 1 ++ sourceFile ++ rest,
    by simp, hconstants, fun replaced hreplaced => ?_⟩
  have hagain : layout.Written other code
      (layout.opening ++ Bytes.ofUInt16 layout.constantPoolCount ++ replaced ++ layout.middle ++
        constructor ++ Bytes.ofUInt16 1 ++ sourceFile) :=
    ⟨hsize.trans hwritten.counted, hwritten.described, replaced, constructor, sourceFile, hreplaced,
      Method.written_of_agreesOnNames hnames hconstructor,
      Attribute.written_of_agreesOnNames hnames hsourceFile, rfl⟩
  exact gives_read_iff.mpr ⟨other, code, _, by simp, hagain, rfl⟩

/-- **Success depends on the pool through the names of attributes only.**  Let another pool have the
four names where this one has them.  Then an attribute, a number of attributes or a method that is
read under the one pool has the same outcome under the other: the same value, the same bytes left
and the same events.  And of a class that was accepted with the one pool, the constants can be
replaced by any written forms of as many constants of the other: the class is still accepted, with
nothing changed but its pool. -/
theorem success_depends_on_names_only (count : UInt16) (bytes : Bytes) :
    (∀ item, (Attribute.read pool bytes).result = .ok item →
      Attribute.read other bytes = Attribute.read pool bytes) ∧
    (∀ items, (Attribute.readAll count pool bytes).result = .ok items →
      Attribute.readAll count other bytes = Attribute.readAll count pool bytes) ∧
    (∀ method, (Method.read pool bytes).result = .ok method →
      Method.read other bytes = Method.read pool bytes) ∧
    ∀ (layout : Layout) compiled rest,
      (layout.read bytes).result = .ok compiled ∧ (layout.read bytes).rest = rest →
      compiled.pool = pool → other.size = pool.size →
      ∃ constants later,
        bytes = layout.header ++ Bytes.ofUInt16 layout.constantPoolCount ++ constants ++ later ∧
        Written.Sequence Constant.Written pool.toList constants ∧
        ∀ replaced, Written.Sequence Constant.Written other.toList replaced →
          let again := layout.read
            (layout.header ++ Bytes.ofUInt16 layout.constantPoolCount ++ replaced ++ later)
          again.result = .ok { compiled with pool := other } ∧ again.rest = rest := by
  refine ⟨Attribute.read_extendedBy hnames bytes, Attribute.readAll_extendedBy hnames count bytes,
    Method.read_extendedBy hnames bytes, ?_⟩
  intro layout compiled rest hgives hpool hsize
  exact gives_read_of_agreesOnNames hnames hsize hgives hpool

omit hnames

/-- The layout of a small class: there are three constants, and the body has no attributes. -/
def small : Layout :=
  { standard with
    constantPoolCount := 4
    constructor := { ConstructorLayout.standard with codeAttributesCount := 0 } }

/-- Its two names, with an entry that plays no part. -/
def smallPool : Pool := .ofList [.utf8 "Code", .utf8 "SourceFile", .classEntry 7]

/-- The bytes of these three constants. -/
def smallPoolBytes : Bytes :=
  [0x01, 0x00, 0x04, 0x43, 0x6F, 0x64, 0x65,
    0x01, 0x00, 0x0A, 0x53, 0x6F, 0x75, 0x72, 0x63, 0x65, 0x46, 0x69, 0x6C, 0x65,
    0x07, 0x00, 0x07]

/-- The same names, with a longer entry behind them. -/
def changedPool : Pool := .ofList [.utf8 "Code", .utf8 "SourceFile", .nameAndType 9 8]

/-- The bytes of these, of which the last takes two more. -/
def changedPoolBytes : Bytes :=
  [0x01, 0x00, 0x04, 0x43, 0x6F, 0x64, 0x65,
    0x01, 0x00, 0x0A, 0x53, 0x6F, 0x75, 0x72, 0x63, 0x65, 0x46, 0x69, 0x6C, 0x65,
    0x0C, 0x00, 0x09, 0x00, 0x08]

theorem smallPool_agreesOnNames : smallPool.AgreesOnNames changedPool := by
  intro kind index hnamed
  have hsize : smallPool.size = 3 := rfl
  obtain ⟨hpositive, hthree⟩ := Attribute.Kind.NamedAt.index_le hnamed
  rw [hsize] at hthree
  have hindex : index = 1 ∨ index = 2 ∨ index = 3 := by
    simp only [← UInt16.toNat_inj]
    show index.toNat = 1 ∨ index.toNat = 2 ∨ index.toNat = 3
    omega
  rcases hindex with rfl | rfl | rfl
  · rfl
  · rfl
  · cases hnamed

theorem written_smallPool : Written.Sequence Constant.Written smallPool.toList smallPoolBytes ∧
    Written.Sequence Constant.Written changedPool.toList changedPoolBytes := by
  have hcode := Attribute.Kind.code.written_nameBytes
  have hsource := Attribute.Kind.sourceFile.written_nameBytes
  have hsmall := Written.Sequence.cons (@Constant.Written.classEntry 7) .nil
  have hchanged := Written.Sequence.cons (@Constant.Written.nameAndType 9 8) .nil
  exact ⟨.cons hcode (.cons hsource hsmall), .cons hcode (.cons hsource hchanged)⟩

theorem read_changedPool :
    smallPool.AgreesOnNames changedPool ∧
    (Attribute.read changedPool [0x00, 0x02, 0x00, 0x00, 0x00, 0x02, 0x00, 0x0C, 0xFF]).result =
      .ok (.sourceFile 12) ∧
    ∃ constants later, small.plainBytes smallPoolBytes 1 2 =
        small.header ++ Bytes.ofUInt16 4 ++ constants ++ later ∧
      (small.read (small.header ++ Bytes.ofUInt16 4 ++ changedPoolBytes ++ later)).result =
        .ok (small.compiled changedPool small.constructor.plainBody) := by
  have hnames := smallPool_agreesOnNames
  obtain ⟨hsmall, hchanged⟩ := written_smallPool
  have haccepted := small.gives_read_plainBytes 1 2 rfl hsmall rfl rfl
  obtain ⟨hitem, -, -, -⟩ := success_depends_on_names_only hnames 0
    [0x00, 0x02, 0x00, 0x00, 0x00, 0x02, 0x00, 0x0C, 0xFF]
  obtain ⟨-, -, -, hclass⟩ := success_depends_on_names_only hnames 0
    (small.plainBytes smallPoolBytes 1 2)
  obtain ⟨constants, later, hbytes, -, hagain⟩ := hclass small _ [] haccepted rfl rfl
  refine ⟨hnames, ?_, constants, later, hbytes, (hagain changedPoolBytes hchanged).1⟩
  rw [hitem (.sourceFile 12) rfl]
  rfl

end Layout

end ClassAudit
