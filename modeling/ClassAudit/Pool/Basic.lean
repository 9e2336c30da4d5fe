import ClassAudit.Fault

/-!
# Constant pools

A constant pool holds the constants of a class.  Its entries are numbered from one, and the number
zero never stands for an entry.  Other parts of a class point into the pool, and looking an entry
up either finds it, finds an entry of another kind, or finds none.
-/

namespace ClassAudit

/-- The constants of a class. -/
structure Pool where
  entries : Array Constant
deriving DecidableEq

namespace Pool

/-- The pool without entries. -/
def empty : Pool := ⟨#[]⟩

/-- The pool of a list of entries. -/
def ofList (constants : List Constant) : Pool := ⟨constants.toArray⟩

/-- The entries of a pool, in order. -/
def toList (pool : Pool) : List Constant := pool.entries.toList

/-- The number of entries. -/
def size (pool : Pool) : Nat := pool.entries.size

/-- The count that announces a pool: one more than it has entries. -/
def count (pool : Pool) : Nat := pool.size + 1

/-- Whether a pool has no entries. -/
def isEmpty (pool : Pool) : Bool := pool.entries.isEmpty

/-- The entry at an index. -/
def get? (pool : Pool) (index : UInt16) : Option Constant :=
  if index = 0 then none else pool.entries[index.toNat - 1]?

@[simp] theorem toList_ofList (constants : List Constant) : (ofList constants).toList = constants :=
  rfl

@[simp] theorem length_toList (pool : Pool) : pool.toList.length = pool.size := rfl

@[simp] theorem get?_zero (pool : Pool) : pool.get? 0 = none := rfl

theorem get?_eq_getElem? (pool : Pool) {index : UInt16} (positive : index ≠ 0) :
    pool.get? index = pool.toList[index.toNat - 1]? := by
  simp [get?, toList, positive]

/-- What `view` sees in the entry at an index, for a view that sees something in the constants of
one kind only. -/
def lookup {α : Type} (pool : Pool) (kind : Constant.Kind) (view : Constant → Option α)
    (index : UInt16) : Except Fault α :=
  match pool.get? index with
  | none => .error (.invalidIndex index)
  | some constant =>
    match view constant with
    | none => .error (.unexpectedConstant kind index constant)
    | some seen => .ok seen

/-- The entry at an index, which has to be of a kind. -/
def resolve (pool : Pool) (kind : Constant.Kind) (index : UInt16) : Except Fault Constant :=
  pool.lookup kind (fun constant => if constant.kind = kind then some constant else none) index

/-- The text at an index. -/
def text (pool : Pool) (index : UInt16) : Except Fault String :=
  pool.lookup .utf8 Constant.text? index

/-- The name of the class at an index: the entry there is a class, and the one at its index is a
text. -/
def className (pool : Pool) (index : UInt16) : Except Fault String := do
  let nameIndex ← pool.lookup .classEntry Constant.classNameIndex? index
  pool.text nameIndex

/-- A pool as it is shown. -/
def outline (pool : Pool) : Text.Outline :=
  .fields "ConstantPool" [("cp_infos", .list (pool.toList.map Constant.outline))]

end Pool

end ClassAudit
