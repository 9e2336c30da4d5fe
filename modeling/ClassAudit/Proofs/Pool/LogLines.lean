import ClassAudit.Proofs.Pool.Outcomes
import ClassAudit.Proofs.Text.Quoted
import ClassAudit.Proofs.Text.Spelling

/-!
# Constants are shown unambiguously

The line of a constant in the log, and the text of a constant in a message, hold texts that can be
anything.  Even so two constants that are shown alike are the same
(`Constant.inline_outline_injective`), no constant is shown on more than one line
(`Constant.plain_outline`), and the log of a pool that was read holds all of its constants
(`Pool.lines_injective`).

All of this is for an arbitrary choice `hidden` of the characters outside ASCII that are written by
their numbers; the table that the program uses is one such choice (`Event.textWith_contains`).
-/

namespace ClassAudit

open Text

namespace Constant

variable {hidden : Char → Bool}

/-! ## One constant -/

/-- The characters by which a constant is shown. -/
theorem toList_inline_outline (hidden : Char → Bool) (constant : Constant) :
    (constant.outline.inline hidden).toList =
      match constant with
      | utf8 text => "Utf8(".toList ++ ((Quoted.quote hidden text).toList ++ [')'])
      | classEntry nameIndex =>
        "Class(ClassInfo \x7b name_index: ".toList ++
          (Nat.toDigits 10 nameIndex.toNat ++ " \x7d)".toList)
      | methodRef classIndex nameAndTypeIndex =>
        "MethodRef(RefInfo \x7b class_index: ".toList ++
          (Nat.toDigits 10 classIndex.toNat ++ (", name_and_type_index: ".toList ++
            (Nat.toDigits 10 nameAndTypeIndex.toNat ++ " \x7d)".toList)))
      | nameAndType nameIndex descriptorIndex =>
        "NameAndType(NameAndTypeInfo \x7b name_index: ".toList ++
          (Nat.toDigits 10 nameIndex.toNat ++ (", descriptor_index: ".toList ++
            (Nat.toDigits 10 descriptorIndex.toNat ++ " \x7d)".toList))) := by
  rw [inline_outline_eq]
  unfold spelling
  cases constant <;> simp

/-- The kind of a constant is known by the first letter of its name. -/
theorem kind_eq_of_inline_eq {first second : Constant}
    (htext : first.outline.inline hidden = second.outline.inline hidden) :
    first.kind = second.kind := by
  have hletter (constant : Constant) : (constant.outline.inline hidden).toList.head? =
      constant.kind.name.toList.head? := by
    rw [toList_inline_outline]
    cases constant <;> simp [kind, Kind.name]
  have hkinds : ∀ one other : Kind, one.name.toList.head? = other.name.toList.head? →
      one = other := by
    intro one other hsame
    cases one <;> cases other <;> first | rfl | exact absurd hsame (by decide)
  apply hkinds
  rw [← hletter, ← hletter, htext]

/-- An index in front of a character that is no digit. -/
theorem index_append_inj {first second : UInt16} {stop : Char} {behind others : List Char}
    (hstop : stop.isAlphanum = false)
    (htext : Nat.toDigits 10 first.toNat ++ stop :: behind =
      Nat.toDigits 10 second.toNat ++ stop :: others) :
    first = second ∧ behind = others := by
  obtain ⟨hnumber, hbehind⟩ := toDigits_append_cons_inj (by decide) (by decide) hstop htext
  exact ⟨UInt16.toNat_inj.mp hnumber, hbehind⟩

/-- Two constants that are shown alike are the same. -/
theorem inline_outline_injective (hidden : Char → Bool) :
    Function.Injective fun constant : Constant => constant.outline.inline hidden := by
  intro first second htext
  have hkind : first.kind = second.kind := kind_eq_of_inline_eq htext
  have hchars := congrArg String.toList htext
  simp only [toList_inline_outline] at hchars
  cases first with
  | utf8 text =>
    cases second with
    | utf8 other =>
      have hquotes := List.append_cancel_left hchars
      rw [(Quoted.quote_append_inj hquotes).1]
    | classEntry _ | methodRef _ _ | nameAndType _ _ => cases hkind
  | classEntry nameIndex =>
    cases second with
    | classEntry other =>
      have hindex := List.append_cancel_left hchars
      rw [(index_append_inj (by decide) hindex).1]
    | utf8 _ | methodRef _ _ | nameAndType _ _ => cases hkind
  | methodRef classIndex nameAndTypeIndex =>
    cases second with
    | methodRef otherClass other =>
      have hindices := List.append_cancel_left hchars
      obtain ⟨rfl, hbehind⟩ := index_append_inj (by decide) hindices
      rw [(index_append_inj (by decide) (List.append_cancel_left hbehind)).1]
    | utf8 _ | classEntry _ | nameAndType _ _ => cases hkind
  | nameAndType nameIndex descriptorIndex =>
    cases second with
    | nameAndType otherName other =>
      have hindices := List.append_cancel_left hchars
      obtain ⟨rfl, hbehind⟩ := index_append_inj (by decide) hindices
      rw [(index_append_inj (by decide) (List.append_cancel_left hbehind)).1]
    | utf8 _ | classEntry _ | methodRef _ _ => cases hkind

/-- The words around the texts and numbers of a constant do not leave their line. -/
theorem plain_outline (constant : Constant) : constant.outline.Plain := by
  have hname : ∀ kind : Kind, OneLine kind.name := by
    intro kind
    cases kind <;> decide
  refine .group (hname constant.kind) fun member hmember => ?_
  rw [List.mem_singleton.mp hmember]
  -- every label is a word of its own, and what it labels is a number
  have hnumber {label : String} (number : Nat) (hlabel : OneLine label) :
      OneLine (label, Outline.number number).1 ∧ (label, Outline.number number).2.Plain :=
    ⟨hlabel, Outline.plain_number number⟩
  cases constant with
  | utf8 text => exact .quoted
  | classEntry nameIndex =>
    refine Outline.plain_fields (by decide) ?_
    simp only [List.forall_mem_cons]
    exact ⟨hnumber _ (by decide), List.forall_mem_nil _⟩
  | methodRef classIndex nameAndTypeIndex =>
    refine Outline.plain_fields (by decide) ?_
    simp only [List.forall_mem_cons]
    exact ⟨hnumber _ (by decide), hnumber _ (by decide), List.forall_mem_nil _⟩
  | nameAndType nameIndex descriptorIndex =>
    refine Outline.plain_fields (by decide) ?_
    simp only [List.forall_mem_cons]
    exact ⟨hnumber _ (by decide), hnumber _ (by decide), List.forall_mem_nil _⟩

theorem oneLine_inline (hidden : Char → Bool) (constant : Constant) :
    OneLine (constant.outline.inline hidden) :=
  constant.plain_outline.oneLine_inline hidden

/-! ## The lines of a pool -/

/-- The line that reports a constant at an index, for any choice of the characters that are written
by their numbers. -/
def line (hidden : Char → Bool) (index : Nat) (constant : Constant) : String :=
  toString index ++ ": " ++ constant.outline.inline hidden

theorem line_injective (hidden : Char → Bool) (index : Nat) :
    Function.Injective (line hidden index) := by
  intro first second hlines
  have hchars := congrArg String.toList hlines
  simp only [line, String.toList_append] at hchars
  exact inline_outline_injective hidden (String.toList_inj.mp (List.append_cancel_left hchars))

theorem oneLine_line (hidden : Char → Bool) (constant : Constant) (index : Nat) :
    OneLine (constant.line hidden index) := by
  rw [line, oneLine_append, oneLine_append]
  exact ⟨⟨oneLine_number index, by decide⟩, constant.oneLine_inline hidden⟩

end Constant

/-- The line that reports an event.  Only constants hold texts between quotes. -/
def Event.textWith (hidden : Char → Bool) : Event → String
  | constant index found => found.line hidden index
  | event => event.text

/-- With the choice that is made for the log, these are the lines of the log. -/
theorem Event.textWith_contains (event : Event) :
    event.textWith Unprinted.contains = event.text := by
  cases event <;> rfl

namespace Pool

/-- The lines of two pools are the same only if their constants are. -/
theorem lines_injective (hidden : Char → Bool) :
    Function.Injective fun constants => (events constants).map (Event.textWith hidden) := by
  intro first second hlines
  apply List.ext_getElem?
  intro offset
  have hline (constants : List Constant) :
      ((events constants).map (Event.textWith hidden))[offset]? =
        constants[offset]?.map (Constant.line hidden (offset + 1)) := by
    rw [events, List.getElem?_map, List.getElem?_mapIdx, Option.map_map]
    rfl
  apply Option.map_injective (Constant.line_injective hidden (offset + 1))
  calc first[offset]?.map (Constant.line hidden (offset + 1)) =
        ((events first).map (Event.textWith hidden))[offset]? := (hline first).symm
    _ = ((events second).map (Event.textWith hidden))[offset]? := congrArg (·[offset]?) hlines
    _ = second[offset]?.map (Constant.line hidden (offset + 1)) := hline second

/-- A reading that gives a pool reports the constants of this pool. -/
theorem log_read_of_ok {count : UInt16} {bytes : Bytes} {pool : Pool}
    (hread : (Pool.read count bytes).result = .ok pool) :
    (Pool.read count bytes).log = events pool.toList := by
  rcases read_cases count bytes with ⟨constants, rest, -, hfound⟩ | hfault
  · rw [hfound] at hread ⊢
    cases hread
    rfl
  · obtain ⟨_, _, _, _, _, -, -, -, -, -, hfault⟩ := hfault
    rw [hfault] at hread
    cases hread

/-- **A pool is logged unambiguously and line by line.**  Whichever characters outside ASCII are
written by their numbers, two constants that are shown alike are the same, and neither a constant as
it is shown nor its line in the log holds a control character.  Hence the log of a pool that was
read determines the pool, whatever the counts and the bytes were.  The texts in the messages and in
the log of the program are those of one such choice. -/
theorem shown_unambiguously_on_one_line (hidden : Char → Bool) :
    (∀ first second : Constant,
      first.outline.inline hidden = second.outline.inline hidden → first = second) ∧
    (∀ constant : Constant, ∀ char ∈ (constant.outline.inline hidden).toList,
      ¬ (char.toNat < 0x20 ∨ char.toNat = 0x7F)) ∧
    (∀ (constant : Constant) (index : Nat), ∀ char ∈ (constant.line hidden index).toList,
      ¬ (char.toNat < 0x20 ∨ char.toNat = 0x7F)) ∧
    (∀ count other bytes others first second, (Pool.read count bytes).result = .ok first →
      (Pool.read other others).result = .ok second →
      (Pool.read count bytes).log.map (Event.textWith hidden) =
        (Pool.read other others).log.map (Event.textWith hidden) → first = second) ∧
    (∀ constant : Constant, constant.outline.inline Unprinted.contains = constant.text) ∧
    ∀ event : Event, event.textWith Unprinted.contains = event.text := by
  refine ⟨fun first second htext => Constant.inline_outline_injective hidden htext,
    fun constant => constant.oneLine_inline hidden,
    fun constant index => constant.oneLine_line hidden index, ?_, fun _ => rfl,
    Event.textWith_contains⟩
  intro count other bytes others first second hfirst hsecond hlogs
  rw [log_read_of_ok hfirst, log_read_of_ok hsecond] at hlogs
  have hconstants : first.toList = second.toList := lines_injective hidden hlogs
  rw [← ofList_toList first, ← ofList_toList second, hconstants]

end Pool

end ClassAudit
