import ClassAudit.Proofs.Attribute.Trace
import ClassAudit.Proofs.Layout.Grammar
import ClassAudit.Proofs.Pool.Outcomes
import ClassAudit.Proofs.Reader.Brackets
import ClassAudit.Proofs.Text.Spelling

/-!
# What is reported of an accepted class

Of the parts of a class, the constants, the constructor and the attributes are reported, each by its
own traces, and everything between them is silent.  `Layout.Traced` puts the traces of the parts
together; it is the grammar of the layout with events.

The last theorem takes together what the log is where a reading succeeds, which shape it keeps where
it does not, and how its lines are spelled.
-/

namespace ClassAudit

/-- The bytes stand for a class of a layout with given constants and a given body of its
constructor, and the events are those of the constants, then those of the constructor and then those
of the attributes of the class. -/
structure Layout.Traced (layout : Layout) (pool : Pool) (code : Code) (bytes : Bytes)
    (log : List Event) : Prop where
  counted : pool.size = layout.constantPoolCount.toNat - 1
  described : layout.constructor.Describes code
  spelled : ∃ constants constructor sourceFile constructorLog attributesLog,
    Written.Sequence Constant.Written pool.toList constants ∧
    Method.Traced pool (layout.constructor.method code) constructor constructorLog ∧
    Written.TracedSequence (Attribute.Traced pool) [.sourceFile layout.sourceFileIndex] sourceFile
      attributesLog ∧
    bytes = layout.opening ++ Bytes.ofUInt16 layout.constantPoolCount ++ constants ++
      layout.middle ++ constructor ++ Bytes.ofUInt16 1 ++ sourceFile ∧
    log = Pool.events pool.toList ++ constructorLog ++ attributesLog

namespace Reader

variable {α : Type}

theorem expect_bind_append (field : Field) (number : UInt16) (next : UInt16 → Reader α)
    (rest : Bytes) : (expect field number >>= next) (Bytes.ofUInt16 number ++ rest) =
      next number rest :=
  (silent_expect field number).bind_apply (gives_expect_iff.mpr ⟨rfl, rfl⟩) next

theorem expectAccess_bind_append (field : Field) (flags : Access) (next : Access → Reader α)
    (rest : Bytes) : (expectAccess field flags >>= next) (Bytes.ofUInt16 flags.bits ++ rest) =
      next flags rest :=
  (silent_expectAccess field flags).bind_apply (gives_expectAccess_iff.mpr ⟨rfl, rfl⟩) next

theorem checkAll_bind_of_pass {made : List Check} (hpass : Check.firstFailure? made = none)
    (next : Unit → Reader α) (bytes : Bytes) : (checkAll made >>= next) bytes = next () bytes :=
  (silent_checkAll made).bind_apply (gives_checkAll_iff.mpr ⟨hpass, rfl⟩) next

end Reader

namespace Layout

variable {layout : Layout}

theorem Written.exists_traced {pool : Pool} {code : Code} {bytes : Bytes}
    (hwritten : layout.Written pool code bytes) : ∃ log, layout.Traced pool code bytes log := by
  obtain ⟨constants, constructor, sourceFile, hconstants, hconstructor, hsourceFile, hbytes⟩ :=
    hwritten.spelled
  obtain ⟨constructorLog, hconstructorLog⟩ := Method.Written.exists_traced _ _ hconstructor
  have hattributes := ClassAudit.Written.Sequence.singleton_iff.mpr hsourceFile
  obtain ⟨attributesLog, hattributesLog⟩ :=
    hattributes.exists_traced Attribute.Written.exists_traced
  exact ⟨_, hwritten.counted, hwritten.described, constants, constructor, sourceFile,
    constructorLog, attributesLog, hconstants, hconstructorLog, hattributesLog, hbytes, rfl⟩

theorem read_apply_of_traced {pool : Pool} {code : Code} {front : Bytes} {log : List Event}
    (htraced : layout.Traced pool code front log) (rest : Bytes) :
    layout.read (front ++ rest) = ⟨.ok (layout.compiled pool code), rest, log⟩ := by
  obtain ⟨constants, constructor, sourceFile, constructorLog, attributesLog, hconstants,
    hconstructor, hattributes, rfl, rfl⟩ := htraced.spelled
  have hheader (later : Bytes) :
      (Reader.expectHeader layout.header).Gives (layout.opening ++ later) () later :=
    gives_expectHeader_iff_opening.mpr rfl
  have hpool (later : Bytes) : Pool.read layout.constantPoolCount (constants ++ later) =
      ⟨.ok pool, later, Pool.events pool.toList⟩ := by
    rw [Pool.read_of_sequence hconstants htraced.counted, Pool.ofList_toList]
  have hmethod (later : Bytes) := Method.runs_read pool _ _ _ hconstructor later
  have hpass : Check.firstFailure?
      (layout.constructor.checks (layout.constructor.method code)) = none :=
    ConstructorLayout.checks_pass_iff.mpr ⟨code, rfl, htraced.described⟩
  have hall : Attribute.readAll 1 pool (sourceFile ++ rest) =
      ⟨.ok [.sourceFile layout.sourceFileIndex], rest, attributesLog⟩ :=
    (Attribute.traces_readAll 1 pool _ _ _ _).mpr ⟨sourceFile, rfl, rfl, hattributes⟩
  have hpassAll : Check.firstFailure?
      (layout.attributeChecks [.sourceFile layout.sourceFileIndex]) = none :=
    (attributeChecks_pass_iff rfl).mpr rfl
  -- only the constants, the constructor and the attributes are reported
  simp only [Layout.read, middle, List.append_assoc,
    (Reader.silent_expectHeader _).bind_apply (hheader _), Reader.expect_bind_append,
    Reader.expectAccess_bind_append, Reader.bind_apply_of_ok (hpool _),
    Reader.bind_apply_of_ok (hmethod _), Reader.checkAll_bind_of_pass hpass,
    Reader.bind_apply_of_ok hall, Reader.checkAll_bind_of_pass hpassAll]
  simp [Reader.pure_eq, Reader.pure, compiled]

/-- A class is given with the traces of its parts. -/
theorem traces_read (layout : Layout) :
    layout.read.Traces fun compiled bytes log =>
      ∃ pool code, compiled = layout.compiled pool code ∧ layout.Traced pool code bytes log := by
  have hreads : layout.read.Reads fun compiled bytes =>
      ∃ pool code, compiled = layout.compiled pool code ∧ layout.Written pool code bytes := by
    intro bytes compiled rest
    rw [gives_read_iff]
    refine ⟨fun hread => ?_, fun hclass => ?_⟩
    · obtain ⟨pool, code, front, hbytes, hwritten, hcompiled⟩ := hread
      exact ⟨front, hbytes, pool, code, hcompiled, hwritten⟩
    · obtain ⟨front, hbytes, pool, code, hcompiled, hwritten⟩ := hclass
      exact ⟨pool, code, front, hbytes, hwritten, hcompiled⟩
  refine Reader.Traces.of_runs hreads ?_ ?_
  · rintro _ front ⟨pool, code, rfl, hwritten⟩
    obtain ⟨log, htraced⟩ := Written.exists_traced hwritten
    exact ⟨log, pool, code, rfl, htraced⟩
  · rintro _ front log ⟨pool, code, rfl, htraced⟩ rest
    exact read_apply_of_traced htraced rest

end Layout

/-- **The log is the bracketed trace of what was read.**  A number of attributes are read from some
bytes if and only if these begin with their written forms, and what is reported is then the trace of
each attribute in order: its header with the index and the length that were read, the traces of the
attributes inside it, and the attribute itself.  A class is read if and only if the bytes begin with
a written form of it, and what is reported is then its constants, its constructor with the traces of
its attributes, and the traces of the attributes of the class.  On every input, whatever the result
is, the lines of a log hold at every point as many headers of attributes as attributes, or one or
two more, and as many where the reading succeeds.  In the lines stand the texts of the attributes
and of the constants as they are written out, and the line of a method has its flags, its two
indices and the number of its attributes. -/
theorem log_is_bracketed_trace (layout : Layout) (step : Step) (count : UInt16) (pool : Pool) :
    ((Attribute.readAll count pool).Traces fun items bytes log =>
      items.length = count.toNat ∧
        Written.TracedSequence (Attribute.Traced pool) items bytes log) ∧
    (∀ index length inside item, (Attribute.trace index length inside item).map Event.text =
      ("attribute " ++ item.label ++ " (attribute_name_index=" ++ toString index.toNat ++
        ", attribute_length=" ++ toString length.toNat ++ ")") ::
          (inside.map Event.text ++ ["\t" ++ item.text])) ∧
    (∀ item : Attribute, item.text = item.spelling Attribute.text) ∧
    (layout.read.Traces fun compiled bytes log =>
      ∃ pool code, compiled = layout.compiled pool code ∧ layout.Traced pool code bytes log) ∧
    ((Pool.events pool.toList).map Event.text = pool.toList.mapIdx fun offset constant =>
      toString (offset + 1) ++ ": " ++ constant.text) ∧
    (∀ constant : Constant, constant.text = constant.spelling Text.Unprinted.contains) ∧
    (∀ access nameIndex descriptorIndex attributesCount,
      (Event.methodStart access nameIndex descriptorIndex attributesCount).text =
        "method access_flags=" ++ access.spelling ++ " name_index=" ++ toString nameIndex.toNat ++
          " descriptor_index=" ++ toString descriptorIndex.toNat ++ " attributes_count=" ++
          toString attributesCount.toNat) ∧
    layout.read.BracketsLines 2 ∧ step.reader.BracketsLines 2 := by
  refine ⟨Attribute.traces_readAll count pool, fun index length inside item => ?_,
    Attribute.text_eq_spelling, layout.traces_read, Pool.text_events pool.toList,
    Constant.inline_outline_eq _, fun access nameIndex descriptorIndex attributesCount => ?_,
    layout.bracketed_read.bracketsLines, step.bracketed_reader.bracketsLines⟩
  · rw [Attribute.trace, List.map_cons, List.map_append, ← Attribute.name_kind]
    rfl
  · rw [← Access.text_eq_spelling]
    rfl

end ClassAudit
