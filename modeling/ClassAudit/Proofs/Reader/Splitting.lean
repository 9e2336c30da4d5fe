import ClassAudit.Proofs.Pool.Outcomes

/-!
# Counted readings split at any point

To read a number of items is to read some of them and then the others, in one run or in two: the
result, the bytes left and the events are the same.  For attributes this is said as it stands
(`Attribute.readAll_add`).  A constant pool numbers its entries from one, so the second of two pools
reports smaller numbers than the one pool that holds both; apart from the numbers it is the same
(`Pool.read_add`).

## Strategy

Both are cases of `repeatedFrom_add`, which splits a repetition into two of which the second goes on
counting where the first one stopped.  What a repetition reports depends on where its counting
starts only by way of its items: if counting `shift` further changes each item by a change of its
events (`relabeled`), it changes the whole repetition in the same way (`repeatedFrom_shift`).
-/

namespace ClassAudit

/-- An event with the number of a constant increased, and any other event as it is. -/
def Event.renumbered (shift : Nat) : Event → Event
  | .constant index found => .constant (index + shift) found
  | other => other

namespace Reader

variable {α β : Type}

/-! ## Two runs for one -/

/-- A repetition is two repetitions, of which the second goes on counting. -/
theorem repeatedFrom_add (index front back : Nat) (item : Nat → Reader α) :
    repeatedFrom index (front + back) item = (do
      let before ← repeatedFrom index front item
      let after ← repeatedFrom (index + front) back item
      return before ++ after) := by
  induction front generalizing index with
  | zero => simp
  | succ front ih =>
    have hcount : front + 1 + back = (front + back) + 1 := by omega
    have hindex : index + (front + 1) = index + 1 + front := by omega
    rw [hcount, hindex, repeatedFrom_succ, repeatedFrom_succ, ih (index + 1)]
    simp only [bind_assoc, pure_bind, List.cons_append]

theorem repeated_add (front back : Nat) (item : Reader α) :
    repeated (front + back) item = (do
      let before ← repeated front item
      let after ← repeated back item
      return before ++ after) := by
  rw [repeated, repeatedFrom_add, repeatedFrom_const, repeatedFrom_const]

/-- A reader that does the same and reports other events. -/
def relabeled (view : Event → Event) (reader : Reader α) : Reader α :=
  fun bytes => { reader bytes with log := (reader bytes).log.map view }

/-- A reading is done in two parts.  If the first part fails, that is how it ends.  Otherwise the
second part reads on from where the first one stopped, and the two values are joined.  The events
are those of both parts, the latter ones under another name. -/
def SplitsInto (whole first second : Reader α) (join : α → α → α) (view : Event → Event) : Prop :=
  ∀ bytes,
    (∀ fault rest log, first bytes = ⟨.error fault, rest, log⟩ →
      whole bytes = ⟨.error fault, rest, log⟩) ∧
    ∀ before middle log, first bytes = ⟨.ok before, middle, log⟩ →
      let later := second middle
      whole bytes = ⟨later.result.map (join before), later.rest, log ++ later.log.map view⟩

theorem splitsInto_of_eq {whole first second : Reader α} {join : α → α → α} {view : Event → Event}
    (heq : whole = do
      let before ← first
      let after ← second.relabeled view
      return join before after) : whole.SplitsInto first second join view := by
  intro bytes
  subst heq
  constructor
  · intro fault rest log hfirst
    exact bind_apply_of_error hfirst _
  · intro before middle log hfirst
    rw [bind_apply_of_ok hfirst]
    cases hsecond : second middle with
    | mk result rest more =>
      have hview : second.relabeled view middle = ⟨result, rest, more.map view⟩ := by
        rw [relabeled, hsecond]
      cases result with
      | error fault => rw [bind_apply_of_error hview]; rfl
      | ok after => rw [bind_apply_of_ok hview]; simp [pure_eq, Reader.pure, Except.map]

/-! ## Counting from another number -/

@[simp] theorem relabeled_id (reader : Reader α) : reader.relabeled id = reader := by
  funext bytes
  simp only [relabeled, List.map_id]

@[simp] theorem relabeled_pure (view : Event → Event) (value : α) :
    (pure value : Reader α).relabeled view = pure value := rfl

@[simp] theorem relabeled_report (view : Event → Event) (event : Event) :
    (report event).relabeled view = report (view event) := rfl

theorem Silent.relabeled_eq {reader : Reader α} (hsilent : reader.Silent) (view : Event → Event) :
    reader.relabeled view = reader := by
  funext bytes
  simp only [relabeled, hsilent bytes, List.map_nil]
  rw [← hsilent bytes]

@[simp] theorem relabeled_bind (view : Event → Event) (first : Reader α) (next : α → Reader β) :
    (first >>= next).relabeled view =
      first.relabeled view >>= fun value => (next value).relabeled view := by
  funext bytes
  cases houtcome : first bytes with
  | mk result middle log =>
    have hview : first.relabeled view bytes = ⟨result, middle, log.map view⟩ := by
      rw [relabeled, houtcome]
    cases result with
    | error fault => rw [relabeled, bind_apply_of_error houtcome, bind_apply_of_error hview]
    | ok found =>
      rw [relabeled, bind_apply_of_ok houtcome, bind_apply_of_ok hview]
      simp only [relabeled, List.map_append]

/-- Where counting further changes only the events of each item, it changes only the events of a
repetition. -/
theorem repeatedFrom_shift {item : Nat → Reader α} {view : Event → Event} {shift : Nat}
    (hitem : ∀ index, item (index + shift) = (item index).relabeled view) (index count : Nat) :
    repeatedFrom (index + shift) count item = (repeatedFrom index count item).relabeled view := by
  induction count generalizing index with
  | zero => rfl
  | succ count ih =>
    have hnext : index + shift + 1 = index + 1 + shift := by omega
    rw [repeatedFrom_succ, repeatedFrom_succ, hnext, ih (index + 1), hitem index]
    simp only [relabeled_bind, relabeled_pure]

end Reader

/-- A count holds every number up to the largest of sixteen bits. -/
theorem toNat_ofNat_count {number : Nat} (hsmall : number ≤ 65535) :
    (UInt16.ofNat number).toNat = number :=
  UInt16.toNat_ofNat_of_lt' (Nat.lt_succ_of_le hsmall)

/-! ## Attributes -/

theorem Attribute.readAll_add (pool : Pool) {front back : Nat} (hsmall : front + back ≤ 65535) :
    Attribute.readAll (.ofNat (front + back)) pool = (do
      let before ← Attribute.readAll (.ofNat front) pool
      let after ← Attribute.readAll (.ofNat back) pool
      return before ++ after) := by
  unfold Attribute.readAll
  rw [toNat_ofNat_count hsmall, toNat_ofNat_count (by omega), toNat_ofNat_count (by omega),
    Reader.repeated_add]

/-! ## Constant pools -/

theorem Constant.readEntry_shift (shift index : Nat) :
    Constant.readEntry (index + shift) =
      (Constant.readEntry index).relabeled (Event.renumbered shift) := by
  unfold Constant.readEntry
  simp only [Reader.relabeled_bind, Constant.silent_read.relabeled_eq, Reader.relabeled_report,
    Reader.relabeled_pure, Event.renumbered]

namespace Pool

/-- One more than a number is the count of a pool with as many entries. -/
theorem read_succ {size : Nat} (hsmall : size + 1 ≤ 65535) :
    Pool.read (.ofNat (size + 1)) = (do
      let constants ← Reader.repeatedFrom 1 size Constant.readEntry
      return Pool.ofList constants) := by
  rw [Pool.read, toNat_ofNat_count hsmall, Nat.add_sub_cancel]

/-- The entries of a pool are read in one run or in two; the numbers of the second run start from
one again, and are increased by what was read in the first. -/
theorem read_add {front back : Nat} (hsmall : front + back + 1 ≤ 65535) :
    Pool.read (.ofNat (front + back + 1)) = (do
      let before ← Pool.read (.ofNat (front + 1))
      let after ← (Pool.read (.ofNat (back + 1))).relabeled (Event.renumbered front)
      return Pool.ofList (before.toList ++ after.toList)) := by
  have hshift := Reader.repeatedFrom_shift (Constant.readEntry_shift front) 1 back
  rw [read_succ hsmall, read_succ (by omega), read_succ (by omega), Reader.repeatedFrom_add,
    hshift]
  simp only [Reader.relabeled_bind, Reader.relabeled_pure, bind_assoc, pure_bind, toList_ofList]

/-- What a pool reports is a line for each entry, and renumbering changes the numbers in front. -/
theorem exists_lines_renumbered (count : UInt16) (bytes : Bytes) (shift : Nat) :
    ∃ constants : List Constant,
      (Pool.read count bytes).log.map Event.text =
        constants.mapIdx (fun offset constant => toString (offset + 1) ++ ": " ++ constant.text) ∧
      ((Pool.read count bytes).log.map (Event.renumbered shift)).map Event.text =
        constants.mapIdx fun offset constant =>
          toString (offset + 1 + shift) ++ ": " ++ constant.text := by
  have hlog : ∃ constants, (Pool.read count bytes).log = events constants := by
    rcases read_cases count bytes with ⟨constants, _, -, hread⟩ | hfault
    · exact ⟨constants, by rw [hread]⟩
    · obtain ⟨constants, _, _, _, _, -, -, -, -, -, hread⟩ := hfault
      exact ⟨constants, by rw [hread]⟩
  obtain ⟨constants, hlog⟩ := hlog
  refine ⟨constants, by rw [hlog, text_events], ?_⟩
  simp only [hlog, events, List.mapIdx_eq_zipIdx_map, List.map_map]
  rfl

end Pool

/-! ## Both -/

/-- **Counted readings split at any point.**  A number of attributes are read in one run as in two,
and so are the entries of a constant pool: where the first run fails, the whole fails in the same
way and there is no second run, and where it succeeds, the second one goes on with the bytes that
are left and decides how the whole ends.  The events are those of both runs, but the second run of
a pool counts its entries from one, and in the whole they come behind those of the first. -/
theorem counted_readings_split (pool : Pool) (front back : Nat) :
    (front + back ≤ 65535 →
      (Attribute.readAll (.ofNat (front + back)) pool).SplitsInto
        (Attribute.readAll (.ofNat front) pool) (Attribute.readAll (.ofNat back) pool)
        (fun before after => before ++ after) id) ∧
    (front + back + 1 ≤ 65535 →
      (Pool.read (.ofNat (front + back + 1))).SplitsInto
        (Pool.read (.ofNat (front + 1))) (Pool.read (.ofNat (back + 1)))
        (fun before after => Pool.ofList (before.toList ++ after.toList))
        (Event.renumbered front)) ∧
    ∀ bytes, ∃ constants : List Constant,
      let log := (Pool.read (.ofNat (back + 1)) bytes).log
      log.map Event.text =
        constants.mapIdx (fun offset constant => toString (offset + 1) ++ ": " ++ constant.text) ∧
      (log.map (Event.renumbered front)).map Event.text =
        constants.mapIdx fun offset constant =>
          toString (offset + 1 + front) ++ ": " ++ constant.text := by
  refine ⟨fun hsmall => ?_, fun hsmall => ?_, fun bytes => ?_⟩
  · apply Reader.splitsInto_of_eq
    rw [Attribute.readAll_add pool hsmall, Reader.relabeled_id]
  · apply Reader.splitsInto_of_eq
    exact Pool.read_add hsmall
  · exact Pool.exists_lines_renumbered _ bytes front

/-- Two classes in one run, from a run for each, and two attributes of which the second is cut
off. -/
theorem split_of_two_and_two :
    1 + 1 + 1 ≤ 65535 ∧
    Pool.read 3 [0x07, 0x00, 0x05, 0x07, 0x00, 0x06, 0xFF] =
      ⟨.ok (.ofList [.classEntry 5, .classEntry 6]), [0xFF],
        [.constant 1 (.classEntry 5), .constant 2 (.classEntry 6)]⟩ ∧
    Attribute.readAll 2 (.ofList [.utf8 "SourceFile"])
        [0x00, 0x01, 0x00, 0x00, 0x00, 0x02, 0x00, 0x0C, 0x00] =
      ⟨.error (.endOfInput .fixed), [],
        [.attributeStart "SourceFile" 1 2, .attributeEnd (.sourceFile 12)]⟩ := by
  have hone : 1 + 1 ≤ 65535 := by decide
  have htwo : 1 + 1 + 1 ≤ 65535 := by decide
  obtain ⟨hattributes, hpool, -⟩ :=
    counted_readings_split (.ofList [.utf8 "SourceFile"]) 1 1
  obtain ⟨-, hconstants⟩ := hpool htwo [0x07, 0x00, 0x05, 0x07, 0x00, 0x06, 0xFF]
  obtain ⟨-, hitems⟩ :=
    hattributes hone [0x00, 0x01, 0x00, 0x00, 0x00, 0x02, 0x00, 0x0C, 0x00]
  exact ⟨htwo, (hconstants _ _ _ rfl).trans rfl, (hitems _ _ _ rfl).trans rfl⟩

end ClassAudit
