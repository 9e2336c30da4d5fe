/-!
# Access flags

A class and a method each carry sixteen access flags, one for each bit of a 16-bit number.  The
bit `0x20` has two names, one for classes and one for methods; both are shown wherever the bit is
set, because the number alone does not tell which is meant.
-/

namespace ClassAudit

/-- A set of access flags, one for each bit that is set. -/
structure Access where
  bits : UInt16
deriving DecidableEq

namespace Access

/-- The names of the access flags. -/
inductive Flag where
  | isPublic
  | isPrivate
  | isProtected
  | isStatic
  | isFinal
  | isSuper
  | isSynchronized
  | isBridge
  | isVarargs
  | isNative
  | isInterface
  | isAbstract
  | isStrict
  | isSynthetic
  | isAnnotation
  | isEnum
  | isModule
deriving DecidableEq

namespace Flag

/-- The bit of a flag. -/
def mask : Flag → UInt16
  | isPublic => 0x0001
  | isPrivate => 0x0002
  | isProtected => 0x0004
  | isStatic => 0x0008
  | isFinal => 0x0010
  | isSuper => 0x0020
  | isSynchronized => 0x0020
  | isBridge => 0x0040
  | isVarargs => 0x0080
  | isNative => 0x0100
  | isInterface => 0x0200
  | isAbstract => 0x0400
  | isStrict => 0x0800
  | isSynthetic => 0x1000
  | isAnnotation => 0x2000
  | isEnum => 0x4000
  | isModule => 0x8000

/-- The name of a flag as it is shown. -/
def name : Flag → String
  | isPublic => "PUBLIC"
  | isPrivate => "PRIVATE"
  | isProtected => "PROTECTED"
  | isStatic => "STATIC"
  | isFinal => "FINAL"
  | isSuper => "SUPER"
  | isSynchronized => "SYNCHRONIZED"
  | isBridge => "BRIDGE"
  | isVarargs => "VARARGS"
  | isNative => "NATIVE"
  | isInterface => "INTERFACE"
  | isAbstract => "ABSTRACT"
  | isStrict => "STRICT"
  | isSynthetic => "SYNTHETIC"
  | isAnnotation => "ANNOTATION"
  | isEnum => "ENUM"
  | isModule => "MODULE"

/-- All flags, in the order in which they are shown. -/
def all : List Flag :=
  [isPublic, isPrivate, isProtected, isStatic, isFinal, isSuper, isSynchronized, isBridge,
    isVarargs, isNative, isInterface, isAbstract, isStrict, isSynthetic, isAnnotation, isEnum,
    isModule]

end Flag

/-- The set of one flag. -/
def ofFlag (flag : Flag) : Access := ⟨flag.mask⟩

/-- The set without flags. -/
def empty : Access := ⟨0⟩

/-- The set of all flags: every bit has a name. -/
def full : Access := ⟨0xFFFF⟩

/-- The flags of either set. -/
def union (flags others : Access) : Access := ⟨flags.bits ||| others.bits⟩

/-- The flags of both sets. -/
def inter (flags others : Access) : Access := ⟨flags.bits &&& others.bits⟩

/-- The flags of the first set that are not in the second. -/
def sdiff (flags others : Access) : Access := ⟨flags.bits &&& ~~~others.bits⟩

/-- The flags of exactly one of the sets. -/
def symmDiff (flags others : Access) : Access := ⟨flags.bits ^^^ others.bits⟩

/-- The flags that are not in the set. -/
def compl (flags : Access) : Access := ⟨~~~flags.bits⟩

/-- Whether all of the other flags are in the set. -/
def contains (flags others : Access) : Bool := flags.inter others = others

/-- Whether some of the other flags is in the set. -/
def intersects (flags others : Access) : Bool := flags.inter others ≠ empty

/-- The flags of the set, in the order in which they are shown. -/
def flags (access : Access) : List Flag :=
  Flag.all.filter fun flag => access.contains (ofFlag flag)

/-- A flag is in a set if and only if its bit is. -/
theorem mem_flags_iff {access : Access} {flag : Flag} :
    flag ∈ access.flags ↔ access.bits &&& flag.mask = flag.mask := by
  have listed : flag ∈ Flag.all := by cases flag <;> decide
  simp [flags, listed, contains, inter, ofFlag]

/-- The names of the flags, or a remark that there are none. -/
def text (access : Access) : String :=
  match access.flags with
  | [] => "(empty)"
  | flags => " | ".intercalate (flags.map Flag.name)

end Access

end ClassAudit
