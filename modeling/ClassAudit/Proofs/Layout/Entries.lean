import ClassAudit.Proofs.Layout.Satisfiable
import ClassAudit.Proofs.Pool.Routes

/-!
# What an accepted class points at

A layout holds indices against indices.  Of the entries that they point at it asks only that they
exist, which the number of constants sees to, and so the names in an accepted class are what its
pool makes of them.  For the standard layout this is said exactly (`standard_fixes_indices_only`):

* an accepted class has one method, whose body calls the entry 1, and the name of a source file;
* its name, that of its superclass, and those of the method, its descriptor and the source file are
  found if and only if the entries 2, 3, 4, 5 and 12 are of the right kind, and they are the texts
  that stand there;
* nothing else is known of these entries: whatever constants are chosen for them, there is an
  accepted class that has these constants there.

So an accepted class need not hold a constructor.  `standard_accepts_nameless` has one in which no
name is found at all, and whose body calls something that is not a method.
-/

namespace ClassAudit

namespace Layout

/-- An accepted class is the one of the layout with its own pool and a body that the layout
describes. -/
theorem compiled_of_accepted {layout : Layout} {bytes : Bytes} {compiled : CompiledClass}
    (haccepted : (layout.read bytes).result = .ok compiled) :
    ∃ code, layout.constructor.Describes code ∧
      compiled = layout.compiled compiled.pool code ∧
      compiled.pool.size = layout.constantPoolCount.toNat - 1 := by
  obtain ⟨pool, code, front, -, hwritten, rfl⟩ := gives_read_iff.mp ⟨haccepted, rfl⟩
  exact ⟨code, hwritten.described, rfl, hwritten.counted⟩

/-- The source file of a class of a layout is the text at the index that the layout fixes. -/
theorem sourceFile_compiled_eq_ok_iff {layout : Layout} {pool : Pool} {code : Code}
    {file : Option String} :
    (layout.compiled pool code).sourceFile = .ok file ↔
      ∃ name, file = some name ∧ pool.get? layout.sourceFileIndex = some (.utf8 name) := by
  have hsource : (layout.compiled pool code).sourceFile =
      (pool.text layout.sourceFileIndex).map some := rfl
  rw [hsource]
  cases htext : pool.text layout.sourceFileIndex with
  | error fault =>
    constructor
    · intro hfile
      cases hfile
    · rintro ⟨name, -, hget⟩
      rw [Pool.text_eq_ok_iff.mpr hget] at htext
      cases htext
  | ok found =>
    have hget : pool.get? layout.sourceFileIndex = some (.utf8 found) := Pool.text_eq_ok_iff.mp htext
    constructor
    · intro hfile
      cases hfile
      exact ⟨found, rfl, hget⟩
    · rintro ⟨name, rfl, hname⟩
      rw [hget] at hname
      cases hname
      rfl

/-! ## The standard layout -/

/-- The indices in the standard layout: of the method that the constructor calls, the class, the
superclass, the name and the descriptor of the constructor, and the source file. -/
def standardIndices : List UInt16 := [1, 2, 3, 4, 5, 12]

/-- A pool of the standard size has an entry at each of them. -/
theorem exists_get?_of_mem_standardIndices {pool : Pool} (hsize : pool.size = 15) {index : UInt16}
    (hindex : index ∈ standardIndices) : ∃ found, pool.get? index = some found := by
  have hbounds : index ≠ 0 ∧ index.toNat ≤ 15 := by
    simp only [standardIndices, List.mem_cons, List.not_mem_nil, or_false] at hindex
    rcases hindex with rfl | rfl | rfl | rfl | rfl | rfl <;> decide
  apply Option.ne_none_iff_exists'.mp
  intro hnone
  rcases Pool.get?_eq_none_iff.mp hnone with hzero | hbehind
  · exact hbounds.1 hzero
  · omega

/-- A pool with given entries at these indices, the two names that a class needs, and nothing of
use elsewhere. -/
def standardEntries (entry : UInt16 → Constant) : List Constant :=
  [entry 1, entry 2, entry 3, entry 4, entry 5] ++
    [.utf8 Attribute.Kind.code.name, .utf8 Attribute.Kind.sourceFile.name] ++
    List.replicate 4 (.classEntry 0) ++ [entry 12] ++ List.replicate 3 (.classEntry 0)

theorem get?_standardEntries {entry : UInt16 → Constant} {index : UInt16}
    (hindex : index ∈ standardIndices) :
    (Pool.ofList (standardEntries entry)).get? index = some (entry index) := by
  simp only [standardIndices, List.mem_cons, List.not_mem_nil, or_false] at hindex
  rcases hindex with rfl | rfl | rfl | rfl | rfl | rfl <;> rfl

/-- Any constants that can be written at all may stand there. -/
theorem exists_accepted_standardEntries {entry : UInt16 → Constant}
    (hwritten : ∀ index ∈ standardIndices, ∃ form, Constant.Written (entry index) form) :
    ∃ bytes, (standard.read bytes).result =
      .ok (standard.compiled (.ofList (standardEntries entry)) standard.constructor.plainBody) := by
  have hentry (index : UInt16) (hindex : index ∈ standardIndices) :
      ∃ form, Written.Sequence Constant.Written [entry index] form := by
    obtain ⟨form, hform⟩ := hwritten index hindex
    exact ⟨form, Written.Sequence.singleton_iff.mpr hform⟩
  obtain ⟨_, hcalled⟩ := hentry 1 (by decide)
  obtain ⟨_, hclass⟩ := hentry 2 (by decide)
  obtain ⟨_, hsuper⟩ := hentry 3 (by decide)
  obtain ⟨_, hname⟩ := hentry 4 (by decide)
  obtain ⟨_, hdescriptor⟩ := hentry 5 (by decide)
  obtain ⟨_, hfile⟩ := hentry 12 (by decide)
  have hcode := Attribute.Kind.code.written_nameBytes
  have hsource := Attribute.Kind.sourceFile.written_nameBytes
  have hunused := Written.Sequence.replicate (@Constant.Written.classEntry 0)
  have hfront := hcalled.append (hclass.append (hsuper.append (hname.append hdescriptor)))
  have hnames := Written.Sequence.cons hcode (.cons hsource .nil)
  have hall := (((hfront.append hnames).append (hunused 4)).append hfile).append (hunused 3)
  have hpool : Written.Sequence Constant.Written (Pool.ofList (standardEntries entry)).toList _ :=
    hall
  exact ⟨_, (standard.gives_read_plainBytes 6 7 rfl hpool rfl rfl).1⟩

/-- **The standard layout fixes the indices and leaves the entries free.**  An accepted class has a
single method, with the standard bytes for a body, and the name of a source file.  All indices that
are followed point into the pool, and a name is found if and only if the entry there is of the right
kind.  Conversely any six constants that can be written are the entries at these indices in some
accepted class. -/
theorem standard_fixes_indices_only :
    (∀ bytes compiled, (standard.read bytes).result = .ok compiled →
      ∃ method code, compiled.methods = [method] ∧ method.attributes = [.code code] ∧
        code.bytecode = [0x2A, 0xB7, 0x00, 0x01, 0xB1] ∧
        (∀ index ∈ standardIndices, ∃ found, compiled.pool.get? index = some found) ∧
        (∀ name, compiled.name = .ok name ↔
          ∃ nameIndex, compiled.pool.get? 2 = some (.classEntry nameIndex) ∧
            compiled.pool.get? nameIndex = some (.utf8 name)) ∧
        (∀ name, compiled.superName = .ok name ↔
          ∃ nameIndex, compiled.pool.get? 3 = some (.classEntry nameIndex) ∧
            compiled.pool.get? nameIndex = some (.utf8 name)) ∧
        (∀ name, compiled.methodName method = .ok name ↔
          compiled.pool.get? 4 = some (.utf8 name)) ∧
        (∀ descriptor, compiled.methodDescriptor method = .ok descriptor ↔
          compiled.pool.get? 5 = some (.utf8 descriptor)) ∧
        compiled.sourceFile ≠ .ok none ∧
        ∀ file, compiled.sourceFile = .ok (some file) ↔
          compiled.pool.get? 12 = some (.utf8 file)) ∧
    ∀ entry : UInt16 → Constant,
      (∀ index ∈ standardIndices, ∃ form, Constant.Written (entry index) form) →
      ∃ bytes compiled, (standard.read bytes).result = .ok compiled ∧
        ∀ index ∈ standardIndices, compiled.pool.get? index = some (entry index) := by
  constructor
  · intro bytes compiled haccepted
    obtain ⟨code, hdescribed, hcompiled, hsize⟩ := compiled_of_accepted haccepted
    generalize compiled.pool = pool at hcompiled hsize
    subst hcompiled
    refine ⟨_, code, rfl, rfl, hdescribed.bytecode,
      fun index hindex => exists_get?_of_mem_standardIndices hsize hindex,
      fun name => Pool.className_eq_ok_iff, fun name => Pool.className_eq_ok_iff,
      fun name => Pool.text_eq_ok_iff, fun descriptor => Pool.text_eq_ok_iff, ?_, fun file => ?_⟩
    · intro hnone
      obtain ⟨_, hsome, -⟩ := sourceFile_compiled_eq_ok_iff.mp hnone
      cases hsome
    · rw [sourceFile_compiled_eq_ok_iff]
      constructor
      · rintro ⟨name, hfile, hget⟩
        cases hfile
        exact hget
      · intro hget
        exact ⟨file, rfl, hget⟩
  · intro entry hwritten
    obtain ⟨bytes, haccepted⟩ := exists_accepted_standardEntries hwritten
    exact ⟨bytes, _, haccepted, fun index hindex => get?_standardEntries hindex⟩

/-- Constants of which none is what the standard layout takes it for. -/
def namelessPool : Pool :=
  .ofList (.classEntry 0 :: .utf8 "Code" :: .utf8 "SourceFile" :: List.replicate 12 (.classEntry 0))

/-- A class with these constants. -/
def namelessBytes : Bytes :=
  [0xCA, 0xFE, 0xBA, 0xBE, 0x00, 0x00, 0x00, 0x31, 0x00, 0x10,
    0x07, 0x00, 0x00, 0x01, 0x00, 0x04, 0x43, 0x6F, 0x64, 0x65,
    0x01, 0x00, 0x0A, 0x53, 0x6F, 0x75, 0x72, 0x63, 0x65, 0x46, 0x69, 0x6C, 0x65,
    0x07, 0x00, 0x00, 0x07, 0x00, 0x00, 0x07, 0x00, 0x00, 0x07, 0x00, 0x00,
    0x07, 0x00, 0x00, 0x07, 0x00, 0x00, 0x07, 0x00, 0x00, 0x07, 0x00, 0x00,
    0x07, 0x00, 0x00, 0x07, 0x00, 0x00, 0x07, 0x00, 0x00, 0x07, 0x00, 0x00,
    0x00, 0x21, 0x00, 0x02, 0x00, 0x03, 0x00, 0x00, 0x00, 0x00, 0x00, 0x01,
    0x00, 0x01, 0x00, 0x04, 0x00, 0x05, 0x00, 0x01, 0x00, 0x02, 0x00, 0x00, 0x00, 0x00,
    0x00, 0x01, 0x00, 0x01, 0x00, 0x00, 0x00, 0x05, 0x2A, 0xB7, 0x00, 0x01, 0xB1,
    0x00, 0x00, 0x00, 0x02, 0x00, 0x03, 0x00, 0x00, 0x00, 0x02, 0x00, 0x00,
    0x00, 0x03, 0x00, 0x00, 0x00, 0x02, 0x00, 0x00,
    0x00, 0x01, 0x00, 0x03, 0x00, 0x00, 0x00, 0x02, 0x00, 0x0C]

/-- The class is accepted, but none of its names is found, and what its method calls is a class. -/
theorem standard_accepts_nameless :
    ∃ compiled method, (standard.read namelessBytes).result = .ok compiled ∧
      compiled.methods = [method] ∧
      compiled.name = .error (.unexpectedConstant .classEntry 2 (.utf8 "Code")) ∧
      compiled.superName = .error (.unexpectedConstant .classEntry 3 (.utf8 "SourceFile")) ∧
      compiled.methodName method = .error (.unexpectedConstant .utf8 4 (.classEntry 0)) ∧
      compiled.methodDescriptor method = .error (.unexpectedConstant .utf8 5 (.classEntry 0)) ∧
      compiled.sourceFile = .error (.unexpectedConstant .utf8 12 (.classEntry 0)) ∧
      compiled.pool.get? 1 = some (.classEntry 0) := by
  have hcode := Attribute.Kind.code.written_nameBytes
  have hsource := Attribute.Kind.sourceFile.written_nameBytes
  have hothers := Written.Sequence.replicate (@Constant.Written.classEntry 0) 12
  have hconstants : Written.Sequence Constant.Written namelessPool.toList _ :=
    .cons .classEntry (.cons hcode (.cons hsource hothers))
  have hplain := standard.gives_read_plainBytes 2 3 rfl hconstants rfl rfl
  have hgives : standard.read.Gives namelessBytes _ [] := hplain
  exact ⟨_, _, hgives.1, rfl, rfl, rfl, rfl, rfl, rfl, rfl⟩

end Layout

end ClassAudit
