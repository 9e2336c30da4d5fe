import ClassAudit.Bytes
import ClassAudit.Text.CodeUnit

/-!
# Modified UTF-8

The encoding in which class files usually hold text.  It writes sixteen-bit code units, not
characters, each in as few bytes as its number allows:

* one byte for the numbers from 1 to `0x7F`;
* two bytes, `110` and `10` in front, for zero and the numbers from `0x80` to `0x7FF`;
* three bytes, `1110` and twice `10` in front, for the rest.

So no byte is ever zero, and a character of two units takes six bytes.  `encode` writes and
`decode?` reads; a byte that follows none of the rules makes the whole sequence unreadable.
-/

namespace ClassAudit.Text.ModifiedUtf8

/-- The bytes of one code unit. -/
def encodeUnit (unit : Nat) : Bytes :=
  if unit ≠ 0 ∧ unit < 0x80 then [.ofNat unit]
  else if unit < 0x800 then [.ofNat (0xC0 + unit / 0x40), .ofNat (0x80 + unit % 0x40)]
  else [.ofNat (0xE0 + unit / 0x1000), .ofNat (0x80 + unit / 0x40 % 0x40),
    .ofNat (0x80 + unit % 0x40)]

/-- The bytes of a text. -/
def encode (text : List Char) : Bytes :=
  (text.flatMap CodeUnit.ofChar).flatMap encodeUnit

/-- Whether a byte has the form `10xxxxxx`. -/
def isContinuation (byte : UInt8) : Bool :=
  0x80 ≤ byte && byte < 0xC0

/-- The number in the bytes `110xxxxx 10xxxxxx`. -/
def ofTwo (first second : UInt8) : Nat :=
  (first.toNat - 0xC0) * 0x40 + (second.toNat - 0x80)

/-- The number in the bytes `1110xxxx 10xxxxxx 10xxxxxx`. -/
def ofThree (first second third : UInt8) : Nat :=
  (first.toNat - 0xE0) * 0x1000 + (second.toNat - 0x80) * 0x40 + (third.toNat - 0x80)

/-- Whether a byte is a number written in one byte. -/
def isOne (first : UInt8) : Bool :=
  first ≠ 0 && first < 0x80

/-- Whether two bytes are a number written in two bytes and not in more than it needs. -/
def isTwo (first second : UInt8) : Bool :=
  0xC0 ≤ first && first < 0xE0 && isContinuation second &&
    (ofTwo first second = 0 || 0x80 ≤ ofTwo first second)

/-- Whether three bytes are a number written in three bytes and not in more than it needs. -/
def isThree (first second third : UInt8) : Bool :=
  0xE0 ≤ first && first < 0xF0 && isContinuation second && isContinuation third &&
    0x800 ≤ ofThree first second third

/-- Reads bytes behind the units already read, which are held in reverse. -/
def unitsOnto (read : List Nat) : Bytes → Option (List Nat)
  | [] => some read.reverse
  | first :: rest =>
    if isOne first then unitsOnto (first.toNat :: read) rest
    else
      match rest with
      | [] => none
      | second :: rest =>
        if isTwo first second then unitsOnto (ofTwo first second :: read) rest
        else
          match rest with
          | [] => none
          | third :: rest =>
            if isThree first second third then unitsOnto (ofThree first second third :: read) rest
            else none

/-- The code units of a byte sequence. -/
def units? (bytes : Bytes) : Option (List Nat) :=
  unitsOnto [] bytes

/-- The text of a byte sequence. -/
def decode? (bytes : Bytes) : Option (List Char) :=
  (units? bytes).bind CodeUnit.chars?

/-- What has already been read stands in front of what is still to come. -/
theorem unitsOnto_eq_map (read : List Nat) (bytes : Bytes) :
    unitsOnto read bytes = (units? bytes).map (read.reverse ++ ·) := by
  have general (more : List Nat) :
      unitsOnto (more ++ read) bytes = (unitsOnto more bytes).map (read.reverse ++ ·) := by
    fun_induction unitsOnto more bytes <;> rw [unitsOnto.eq_def] <;> simp_all
  exact general []

end ClassAudit.Text.ModifiedUtf8
