/-!
# Bytes and big-endian numbers

A class file is a sequence of bytes, and every number in it is written with its most significant
byte first.  `value` reads such a number and `ofUInt16`, `ofUInt32` write one; the lemmas
`value_ofUInt16` and `value_ofUInt32` say that reading undoes writing.
-/

namespace ClassAudit

/-- A sequence of bytes. -/
abbrev Bytes := List UInt8

namespace Bytes

/-- The number whose base-256 digits are the bytes, the most significant one first. -/
def value (bytes : Bytes) : Nat :=
  bytes.foldl (fun total byte => 256 * total + byte.toNat) 0

/-- The two bytes of a 16-bit number. -/
def ofUInt16 (number : UInt16) : Bytes :=
  [.ofNat (number.toNat / 256), .ofNat number.toNat]

/-- The four bytes of a 32-bit number. -/
def ofUInt32 (number : UInt32) : Bytes :=
  [.ofNat (number.toNat / 16777216), .ofNat (number.toNat / 65536),
    .ofNat (number.toNat / 256), .ofNat number.toNat]

@[simp] theorem value_nil : value [] = 0 := rfl

@[simp] theorem value_singleton (byte : UInt8) : value [byte] = byte.toNat := by
  simp [value]

@[simp] theorem length_ofUInt16 (number : UInt16) : (ofUInt16 number).length = 2 := rfl

@[simp] theorem length_ofUInt32 (number : UInt32) : (ofUInt32 number).length = 4 := rfl

/-! ### Reading undoes writing -/

@[simp] theorem value_ofUInt16 (number : UInt16) : value (ofUInt16 number) = number.toNat := by
  have small := number.toNat_lt
  simp only [value, ofUInt16, List.foldl_cons, List.foldl_nil, UInt8.toNat_ofNat']
  omega

@[simp] theorem value_ofUInt32 (number : UInt32) : value (ofUInt32 number) = number.toNat := by
  have small := number.toNat_lt
  simp only [value, ofUInt32, List.foldl_cons, List.foldl_nil, UInt8.toNat_ofNat']
  omega

end Bytes

end ClassAudit
