import ClassAudit.CompiledClass
import ClassAudit.Proofs.Pool.Routes

/-!
# The names in a class

A class, whether it was read or put together by other means, is asked for five names.  Each answer
is what comes of the hops through its pool (`Pool.Route`): there are two to its own name and to that
of its superclass, and one to the name of a method, to its descriptor and to the source file.  So a
name is found if and only if the entries on the way are of the right kinds, and otherwise the fault
is that of the first hop that fails.  The hop to the source file starts from the first attribute of
the class that has an index for it.  What stands inside a body is not searched.

A class may grow, by constants behind those of its pool and by attributes behind its own.  An answer
changes if and only if it was that an index has no constant, and the larger pool has one there
(`Stable`).  All this is `names_report_first_fault_and_persist`.

## Strategy

The first four names are routes as they stand, so `Pool.Route.ne_iff_supplies` says all about them.
For the source file there are two cases, by the attributes of the class: none of them has an index,
and the answer has nothing to do with the pool, or there is a first one
(`firstSourceFile?_eq_some_iff`), which stays the first in a longer list.
-/

namespace ClassAudit

/-! ## The attribute that names the source file -/

namespace Attribute

/-- The index in the first of some attributes that names a source file. -/
def FirstSourceFile (attributes : List Attribute) (nameIndex : UInt16) : Prop :=
  ∃ before after, attributes = before ++ .sourceFile nameIndex :: after ∧
    ∀ earlier ∈ before, earlier.kind ≠ .sourceFile

variable {attributes : List Attribute} {nameIndex : UInt16}

theorem sourceFile?_eq_none_iff {item : Attribute} :
    item.sourceFile? = none ↔ item.kind ≠ .sourceFile := by
  cases item <;> simp [sourceFile?, kind]

theorem sourceFile?_eq_some_iff {item : Attribute} :
    item.sourceFile? = some nameIndex ↔ item = .sourceFile nameIndex := by
  cases item <;> simp [sourceFile?]

theorem firstSourceFile?_eq_none_iff :
    firstSourceFile? attributes = none ↔ ∀ item ∈ attributes, item.kind ≠ .sourceFile := by
  simp only [firstSourceFile?, List.findSome?_eq_none_iff, sourceFile?_eq_none_iff]

theorem firstSourceFile?_eq_some_iff :
    firstSourceFile? attributes = some nameIndex ↔ FirstSourceFile attributes nameIndex := by
  simp only [firstSourceFile?, List.findSome?_eq_some_iff, sourceFile?_eq_none_iff,
    sourceFile?_eq_some_iff]
  constructor
  · rintro ⟨before, _, after, hattributes, rfl, hbefore⟩
    exact ⟨before, after, hattributes, hbefore⟩
  · rintro ⟨before, after, hattributes, hbefore⟩
    exact ⟨before, _, after, hattributes, rfl, hbefore⟩

theorem none_or_first (attributes : List Attribute) :
    (∀ item ∈ attributes, item.kind ≠ .sourceFile) ∨
      ∃ nameIndex, FirstSourceFile attributes nameIndex := by
  cases hfirst : firstSourceFile? attributes with
  | none => exact .inl (firstSourceFile?_eq_none_iff.mp hfirst)
  | some nameIndex => exact .inr ⟨nameIndex, firstSourceFile?_eq_some_iff.mp hfirst⟩

/-- A body is passed over, whatever it holds. -/
theorem firstSourceFile?_code (before after : List Attribute) (body : Code) :
    firstSourceFile? (before ++ .code body :: after) = firstSourceFile? (before ++ after) := by
  simp only [firstSourceFile?, List.findSome?_append, List.findSome?_cons, sourceFile?]

/-- The first one stays the first. -/
theorem FirstSourceFile.append (hfirst : FirstSourceFile attributes nameIndex)
    (others : List Attribute) : FirstSourceFile (attributes ++ others) nameIndex := by
  obtain ⟨before, after, rfl, hbefore⟩ := hfirst
  exact ⟨before, after ++ others, by rw [List.append_assoc, List.cons_append], hbefore⟩

end Attribute

namespace CompiledClass

variable {compiled : CompiledClass} {nameIndex : UInt16}

/-! ## The source file -/

theorem map_some_inj {α : Type} {answer other : Except Fault α} :
    answer.map some = other.map some ↔ answer = other := by
  cases answer <;> cases other <;> simp [Except.map]

theorem sourceFile_of_none (hnone : ∀ item ∈ compiled.attributes, item.kind ≠ .sourceFile) :
    compiled.sourceFile = .ok none := by
  rw [sourceFile, Attribute.firstSourceFile?_eq_none_iff.mpr hnone]

theorem sourceFile_of_first (hfirst : Attribute.FirstSourceFile compiled.attributes nameIndex) :
    compiled.sourceFile = (compiled.pool.text nameIndex).map some := by
  rw [sourceFile, Attribute.firstSourceFile?_eq_some_iff.mpr hfirst]

/-- There is nothing to be found if and only if no attribute of the class has an index. -/
theorem sourceFile_eq_ok_none_iff :
    compiled.sourceFile = .ok none ↔ ∀ item ∈ compiled.attributes, item.kind ≠ .sourceFile := by
  refine ⟨fun hsource => ?_, sourceFile_of_none⟩
  rcases Attribute.none_or_first compiled.attributes with hnone | ⟨nameIndex, hfirst⟩
  · exact hnone
  · rw [sourceFile_of_first hfirst] at hsource
    cases htext : compiled.pool.text nameIndex <;> simp [htext, Except.map] at hsource

/-- Otherwise there is one hop, from the first index. -/
theorem sourceFile_eq_map_some_iff {answer : Except Fault String} :
    compiled.sourceFile = answer.map some ↔
      ∃ nameIndex, Attribute.FirstSourceFile compiled.attributes nameIndex ∧
        compiled.pool.Route [.utf8] nameIndex answer := by
  simp only [← Attribute.firstSourceFile?_eq_some_iff, ← Pool.text_eq_iff]
  unfold sourceFile
  cases Attribute.firstSourceFile? compiled.attributes with
  | none => cases answer <;> simp [Except.map]
  | some nameIndex => simp [map_some_inj]

/-! ## Classes that grow -/

/-- A class with further constants behind those of its pool, and further attributes behind its
own. -/
def extend (compiled : CompiledClass) (constants : List Constant) (attributes : List Attribute) :
    CompiledClass :=
  { compiled with
    pool := compiled.pool.extend constants
    attributes := compiled.attributes ++ attributes }

/-- A larger class gives another answer if and only if the answer was that an index has no constant,
and the larger class has one there. -/
def Stable {α : Type} (answer : CompiledClass → Except Fault α)
    (compiled extended : CompiledClass) : Prop :=
  answer extended ≠ answer compiled ↔ extended.pool.Supplies (answer compiled)

/-- Further attributes do not matter behind one that names the source file.  Without one they
would, so there must be none then. -/
theorem stable_sourceFile {constants : List Constant} {attributes : List Attribute}
    (hnamed : attributes = [] ∨ ∃ item ∈ compiled.attributes, item.kind = .sourceFile) :
    Stable sourceFile compiled (compiled.extend constants attributes) := by
  rcases Attribute.none_or_first compiled.attributes with hnone | ⟨nameIndex, hfirst⟩
  · have hsame : (compiled.extend constants attributes).attributes = compiled.attributes := by
      rcases hnamed with rfl | ⟨item, hitem, hkind⟩
      · exact List.append_nil _
      · exact absurd hkind (hnone item hitem)
    -- neither class asks its pool
    rw [Stable, sourceFile_of_none hnone, sourceFile_of_none (by rwa [hsame])]
    simp [Pool.Supplies]
  · have hlater : Attribute.FirstSourceFile (compiled.extend constants attributes).attributes
        nameIndex := hfirst.append attributes
    rw [Stable, sourceFile_of_first hfirst, sourceFile_of_first hlater,
      Pool.supplies_map_some_iff, Ne, map_some_inj]
    exact (compiled.pool.route_text nameIndex).ne_iff_supplies (Pool.route_text _ nameIndex)

/-- **The names in a class report the first hop that fails, and outlast its growth.**  The name of a
class is found if and only if its index leads to a class whose index leads to a text.  If it is not
found, the fault is that of the first hop that fails on this route.  The same goes for the
superclass, and with a single hop for methods, their descriptors and the source file.  There is no
source file if and only if no attribute of the class names one, where those inside a body do not
count; otherwise the first of them is followed.  Constants added behind those of the pool change an
answer if and only if it missed one of them.  Attributes added behind those of the class change
none, provided that one of these names a source file. -/
theorem names_report_first_fault_and_persist :
    (∀ compiled : CompiledClass,
      (∀ name, compiled.name = .ok name ↔ ∃ nameIndex,
        compiled.pool.get? compiled.thisClass = some (.classEntry nameIndex) ∧
          compiled.pool.get? nameIndex = some (.utf8 name)) ∧
      (∀ fault, compiled.name = .error fault ↔
        compiled.pool.Route [.classEntry, .utf8] compiled.thisClass (.error fault)) ∧
      (∀ name, compiled.superName = .ok name ↔ ∃ nameIndex,
        compiled.pool.get? compiled.superClass = some (.classEntry nameIndex) ∧
          compiled.pool.get? nameIndex = some (.utf8 name)) ∧
      (∀ fault, compiled.superName = .error fault ↔
        compiled.pool.Route [.classEntry, .utf8] compiled.superClass (.error fault)) ∧
      (∀ method name, compiled.methodName method = .ok name ↔
        compiled.pool.get? method.nameIndex = some (.utf8 name)) ∧
      (∀ method fault, compiled.methodName method = .error fault ↔
        compiled.pool.Route [.utf8] method.nameIndex (.error fault)) ∧
      (∀ method descriptor, compiled.methodDescriptor method = .ok descriptor ↔
        compiled.pool.get? method.descriptorIndex = some (.utf8 descriptor)) ∧
      (∀ method fault, compiled.methodDescriptor method = .error fault ↔
        compiled.pool.Route [.utf8] method.descriptorIndex (.error fault)) ∧
      (compiled.sourceFile = .ok none ↔
        ∀ item ∈ compiled.attributes, item.kind ≠ .sourceFile) ∧
      (∀ file, compiled.sourceFile = .ok (some file) ↔ ∃ nameIndex,
        Attribute.FirstSourceFile compiled.attributes nameIndex ∧
          compiled.pool.get? nameIndex = some (.utf8 file)) ∧
      (∀ fault, compiled.sourceFile = .error fault ↔ ∃ nameIndex,
        Attribute.FirstSourceFile compiled.attributes nameIndex ∧
          compiled.pool.Route [.utf8] nameIndex (.error fault)) ∧
      ∀ before body after,
        sourceFile { compiled with attributes := before ++ .code body :: after } =
          sourceFile { compiled with attributes := before ++ after }) ∧
    ∀ (compiled : CompiledClass) (constants : List Constant) (attributes : List Attribute),
      Stable name compiled (compiled.extend constants attributes) ∧
      Stable superName compiled (compiled.extend constants attributes) ∧
      (∀ method, Stable (methodName · method) compiled (compiled.extend constants attributes) ∧
        Stable (methodDescriptor · method) compiled (compiled.extend constants attributes)) ∧
      ((attributes = [] ∨ ∃ item ∈ compiled.attributes, item.kind = .sourceFile) →
        Stable sourceFile compiled (compiled.extend constants attributes)) := by
  constructor
  · intro compiled
    refine ⟨fun name => Pool.className_eq_ok_iff, fun fault => Pool.className_eq_iff,
      fun name => Pool.className_eq_ok_iff, fun fault => Pool.className_eq_iff,
      fun method name => Pool.text_eq_ok_iff, fun method fault => Pool.text_eq_iff,
      fun method descriptor => Pool.text_eq_ok_iff, fun method fault => Pool.text_eq_iff,
      sourceFile_eq_ok_none_iff, fun file => ?_, fun fault => ?_, fun before body after => ?_⟩
    · have hsource : compiled.sourceFile = .ok (some file) ↔ _ :=
        @sourceFile_eq_map_some_iff compiled (.ok file)
      simpa only [← Pool.text_eq_iff, Pool.text_eq_ok_iff] using hsource
    · exact @sourceFile_eq_map_some_iff compiled (.error fault)
    · rw [sourceFile, sourceFile, Attribute.firstSourceFile?_code]
  · intro compiled constants attributes
    have hclass (index : UInt16) :=
      (compiled.pool.route_className index).ne_iff_supplies
        (Pool.route_className (compiled.pool.extend constants) index)
    have htext (index : UInt16) :=
      (compiled.pool.route_text index).ne_iff_supplies
        (Pool.route_text (compiled.pool.extend constants) index)
    exact ⟨hclass compiled.thisClass, hclass compiled.superClass,
      fun method => ⟨htext method.nameIndex, htext method.descriptorIndex⟩, stable_sourceFile⟩

/-- A class that points behind the end of its pool twice, and to the index zero once. -/
def unfinished : CompiledClass where
  majorVersion := 49
  minorVersion := 0
  pool := .ofList [.classEntry 2]
  access := ⟨0x21⟩
  thisClass := 1
  superClass := 0
  interfacesCount := 0
  fieldsCount := 0
  methods := []
  attributes := [.lineNumberTable 0, .sourceFile 3]

/-- With two texts more it has a name and a source file, and a second attribute for the source file
makes no difference.  The superclass is still missing. -/
theorem unfinished_extended :
    (∃ item ∈ unfinished.attributes, item.kind = .sourceFile) ∧
      ∃ extended, extended = unfinished.extend [.utf8 "A", .utf8 "A.java"] [.sourceFile 9] ∧
        Stable sourceFile unfinished extended ∧
        unfinished.name = .error (.invalidIndex 2) ∧ extended.name = .ok "A" ∧
        unfinished.superName = .error (.invalidIndex 0) ∧
        extended.superName = .error (.invalidIndex 0) ∧
        unfinished.sourceFile = .error (.invalidIndex 3) ∧
        extended.sourceFile = .ok (some "A.java") := by
  have hnamed : ∃ item ∈ unfinished.attributes, item.kind = .sourceFile :=
    ⟨.sourceFile 3, List.mem_cons_of_mem _ List.mem_cons_self, rfl⟩
  obtain ⟨-, hgrown⟩ := names_report_first_fault_and_persist
  obtain ⟨-, -, -, hstable⟩ := hgrown unfinished [.utf8 "A", .utf8 "A.java"] [.sourceFile 9]
  exact ⟨hnamed, _, rfl, hstable (.inr hnamed), rfl, rfl, rfl, rfl, rfl, rfl⟩

end CompiledClass

end ClassAudit
