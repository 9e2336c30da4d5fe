import ClassAudit.Proofs.Pool.Grammar

/-!
# Routes through a constant pool

A text is found in one hop, at its index.  The name of a class takes two, because the entry of the
class holds the index of its name.  `Pool.Route` says what comes of the hops, one after the other:
the text at the end, or the fault of the first hop that fails.  A hop fails if the pool has no entry
at its index, or one of another kind.

* There is one answer at most to a question (`Route.unique`), and the look-up of a text and that of
  a class name find it (`text_eq_iff`, `className_eq_iff`).
* A pool may grow by further entries behind its own.  The hops that have been made remain, so the
  answer is another one if and only if a hop failed for want of an entry that the pool has by now
  (`Route.ne_iff_supplies`).  The index zero never has one.
-/

namespace ClassAudit

namespace Pool

/-- From an index on there is a hop for each of these kinds, and this comes of them. -/
inductive Route (pool : Pool) :
    List Constant.Kind → UInt16 → Except Fault String → Prop where
  /-- The pool has no entry where the next hop leads. -/
  | missing {kind : Constant.Kind} {later : List Constant.Kind} {index : UInt16}
      (hmissing : pool.get? index = none) :
      Route pool (kind :: later) index (.error (.invalidIndex index))
  /-- The entry there is of another kind than the hop asks for. -/
  | mistaken {kind : Constant.Kind} {later : List Constant.Kind} {index : UInt16}
      {found : Constant} (hfound : pool.get? index = some found) (hkind : found.kind ≠ kind) :
      Route pool (kind :: later) index (.error (.unexpectedConstant kind index found))
  /-- A class leads on to the index of its name. -/
  | onward {later : List Constant.Kind} {index nameIndex : UInt16}
      {answer : Except Fault String} (hclass : pool.get? index = some (.classEntry nameIndex))
      (hlater : Route pool later nameIndex answer) :
      Route pool (.classEntry :: later) index answer
  /-- A text is the end. -/
  | arrived {index : UInt16} {text : String} (htext : pool.get? index = some (.utf8 text)) :
      Route pool [.utf8] index (.ok text)

variable {pool : Pool} {kinds : List Constant.Kind} {index : UInt16}
  {answer other : Except Fault String}

/-- The entry at an index decides which of the four ways a route takes. -/
theorem Route.unique (hroute : pool.Route kinds index answer)
    (hother : pool.Route kinds index other) : answer = other := by
  induction hroute with
  | missing hmissing =>
    cases hother with
    | missing _ => rfl
    | mistaken hfound _ => simp [hmissing] at hfound
    | onward hclass _ => simp [hmissing] at hclass
    | arrived htext => simp [hmissing] at htext
  | mistaken hfound hkind =>
    cases hother with
    | missing hmissing => simp [hmissing] at hfound
    | mistaken hsame _ =>
      cases hfound.symm.trans hsame
      rfl
    | onward hclass _ =>
      cases hfound.symm.trans hclass
      exact absurd rfl hkind
    | arrived htext =>
      cases hfound.symm.trans htext
      exact absurd rfl hkind
  | onward hclass _ ih =>
    cases hother with
    | missing hmissing => simp [hmissing] at hclass
    | mistaken hfound hkind =>
      cases hclass.symm.trans hfound
      exact absurd rfl hkind
    | onward hsame hlater =>
      cases hclass.symm.trans hsame
      exact ih hlater
  | arrived htext =>
    cases hother with
    | missing hmissing => simp [hmissing] at htext
    | mistaken hfound hkind =>
      cases htext.symm.trans hfound
      exact absurd rfl hkind
    | arrived hsame =>
      cases htext.symm.trans hsame
      rfl

/-! ## The look-ups follow routes -/

/-- A look-up that fails does so at its one hop, however the route was to go on. -/
theorem route_of_lookup_eq_error {α : Type} {kind : Constant.Kind} {view : Constant → Option α}
    (hview : ∀ {constant}, view constant = none ↔ constant.kind ≠ kind) {fault : Fault}
    (hlookup : pool.lookup kind view index = .error fault) (later : List Constant.Kind) :
    pool.Route (kind :: later) index (.error fault) := by
  rcases lookup_eq_error_iff.mp hlookup with ⟨hmissing, rfl⟩ | ⟨found, hfound, hunseen, rfl⟩
  · exact .missing hmissing
  · exact .mistaken hfound (hview.mp hunseen)

theorem route_text (pool : Pool) (index : UInt16) :
    pool.Route [.utf8] index (pool.text index) := by
  cases htext : pool.text index with
  | ok text => exact .arrived (text_eq_ok_iff.mp htext)
  | error fault => exact route_of_lookup_eq_error Constant.text?_eq_none_iff htext []

theorem route_className (pool : Pool) (index : UInt16) :
    pool.Route [.classEntry, .utf8] index (pool.className index) := by
  unfold className
  cases hlookup : pool.lookup .classEntry Constant.classNameIndex? index with
  | ok nameIndex =>
    obtain ⟨constant, hfound, hview⟩ := lookup_eq_ok_iff.mp hlookup
    obtain rfl : constant = .classEntry nameIndex := by
      cases constant <;> simp_all [Constant.classNameIndex?]
    exact .onward hfound (pool.route_text nameIndex)
  | error fault =>
    exact route_of_lookup_eq_error Constant.classNameIndex?_eq_none_iff hlookup [.utf8]

theorem text_eq_iff : pool.text index = answer ↔ pool.Route [.utf8] index answer := by
  constructor
  · rintro rfl
    exact pool.route_text index
  · intro hroute
    exact (pool.route_text index).unique hroute

theorem className_eq_iff :
    pool.className index = answer ↔ pool.Route [.classEntry, .utf8] index answer := by
  constructor
  · rintro rfl
    exact pool.route_className index
  · intro hroute
    exact (pool.route_className index).unique hroute

/-- A class that gives itself for its name: the first hop is made, the second one fails. -/
example : (ofList [.classEntry 1]).className 1 =
    .error (.unexpectedConstant .utf8 1 (.classEntry 1)) := rfl

/-- A class is named by two entries, one behind the other. -/
theorem className_eq_ok_iff {name : String} :
    pool.className index = .ok name ↔
      ∃ nameIndex, pool.get? index = some (.classEntry nameIndex) ∧
        pool.get? nameIndex = some (.utf8 name) := by
  rw [className_eq_iff]
  constructor
  · intro hroute
    cases hroute with
    | onward hclass hlater =>
      cases hlater with
      | arrived htext => exact ⟨_, hclass, htext⟩
  · rintro ⟨nameIndex, hclass, htext⟩
    exact .onward hclass (.arrived htext)

/-! ## Pools that grow -/

/-- A pool with further entries behind its own. -/
def extend (pool : Pool) (constants : List Constant) : Pool :=
  .ofList (pool.toList ++ constants)

variable {constants : List Constant}

/-- An entry keeps its index. -/
theorem get?_extend_of_eq_some {found : Constant} (hfound : pool.get? index = some found) :
    (pool.extend constants).get? index = some found := by
  have hpositive : index ≠ 0 := by
    rintro rfl
    cases hfound
  rw [get?_eq_getElem? _ hpositive] at hfound ⊢
  obtain ⟨hbound, -⟩ := List.getElem?_eq_some_iff.mp hfound
  rw [extend, toList_ofList, List.getElem?_append_left hbound, hfound]

/-- An answer says that there is no entry at some index, which is one of the indices of this
pool. -/
def Supplies {α : Type} (pool : Pool) (answer : Except Fault α) : Prop :=
  ∃ missing : UInt16, answer = .error (.invalidIndex missing) ∧
    0 < missing.toNat ∧ missing.toNat ≤ pool.size

theorem supplies_map_some_iff {α : Type} {answer : Except Fault α} :
    pool.Supplies (answer.map some) ↔ pool.Supplies answer := by
  cases answer <;> simp [Supplies, Except.map]

theorem not_supplies_invalidIndex_iff {α : Type} :
    ¬ pool.Supplies (.error (.invalidIndex index) : Except Fault α) ↔ pool.get? index = none := by
  have hzero : index = 0 ↔ index.toNat = 0 := by rw [← UInt16.toNat_inj, UInt16.toNat_zero]
  rw [get?_eq_none_iff, hzero]
  constructor
  · intro hunsupplied
    have houtside : ¬ (0 < index.toNat ∧ index.toNat ≤ pool.size) :=
      fun hinside => hunsupplied ⟨index, rfl, hinside⟩
    omega
  · rintro houtside ⟨missing, hanswer, hpositive, hbound⟩
    cases hanswer
    omega

/-- What a pool answers is never for want of an entry that it has. -/
theorem Route.not_supplies (hroute : pool.Route kinds index answer) : ¬ pool.Supplies answer := by
  induction hroute with
  | missing hmissing => exact not_supplies_invalidIndex_iff.mpr hmissing
  | mistaken _ _ =>
    rintro ⟨missing, hanswer, -⟩
    cases hanswer
  | onward _ _ ih => exact ih
  | arrived _ =>
    rintro ⟨missing, hanswer, -⟩
    cases hanswer

/-- The hops of a route can be made in a larger pool as well, and the last one fails again if the
index that it leads to still has no entry. -/
theorem Route.extend (hroute : pool.Route kinds index answer)
    (hunsupplied : ¬ (pool.extend constants).Supplies answer) :
    (pool.extend constants).Route kinds index answer := by
  induction hroute with
  | missing _ =>
    -- the only hop that the new entries could mend
    exact .missing (not_supplies_invalidIndex_iff.mp hunsupplied)
  | mistaken hfound hkind => exact .mistaken (get?_extend_of_eq_some hfound) hkind
  | onward hclass _ ih => exact .onward (get?_extend_of_eq_some hclass) (ih hunsupplied)
  | arrived htext => exact .arrived (get?_extend_of_eq_some htext)

/-- A larger pool gives another answer if and only if it has the entry for want of which a hop
failed. -/
theorem Route.ne_iff_supplies (hroute : pool.Route kinds index answer)
    (hlarger : (pool.extend constants).Route kinds index other) :
    other ≠ answer ↔ (pool.extend constants).Supplies answer := by
  constructor
  · intro hdiffer
    apply Classical.byContradiction
    intro hunsupplied
    exact hdiffer (hlarger.unique (hroute.extend hunsupplied))
  · rintro hsupplied rfl
    exact hlarger.not_supplies hsupplied

end Pool

end ClassAudit
