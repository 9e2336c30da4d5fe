/-!
# Sixteen-bit code units

A character below `0x10000` is one unit, its own number.  Any other character is a pair: a high
unit, from `0xD800`, that carries the upper ten bits of the number less `0x10000`, and a low unit,
from `0xDC00`, that carries the lower ten.  `ofChar` writes the units of a character and `chars?`
reads a list of units back, refusing a high unit without its low one and a low unit without its
high one.
-/

namespace ClassAudit.Text.CodeUnit

/-- Whether a unit is the first half of a pair. -/
def isHigh (unit : Nat) : Bool :=
  0xD800 ≤ unit && unit < 0xDC00

/-- Whether a unit is the second half of a pair. -/
def isLow (unit : Nat) : Bool :=
  0xDC00 ≤ unit && unit < 0xE000

/-- The units of a character. -/
def ofChar (character : Char) : List Nat :=
  if character.toNat < 0x10000 then [character.toNat]
  else [0xD800 + (character.toNat - 0x10000) / 0x400, 0xDC00 + (character.toNat - 0x10000) % 0x400]

/-- The character of a high and a low unit. -/
def paired (high low : Nat) : Char :=
  .ofNat (0x10000 + (high - 0xD800) * 0x400 + (low - 0xDC00))

/-- Reads units behind the characters already read, which are held in reverse. -/
def charsOnto (read : List Char) : List Nat → Option (List Char)
  | [] => some read.reverse
  | unit :: rest =>
    if isLow unit then none
    else if isHigh unit then
      match rest with
      | [] => none
      | next :: rest => if isLow next then charsOnto (paired unit next :: read) rest else none
    else charsOnto (.ofNat unit :: read) rest

/-- The characters of a list of units, if every half of a pair stands beside its other half. -/
def chars? (units : List Nat) : Option (List Char) :=
  charsOnto [] units

/-- What has already been read stands in front of what is still to come. -/
theorem charsOnto_eq_map (read : List Char) (units : List Nat) :
    charsOnto read units = (chars? units).map (read.reverse ++ ·) := by
  have general (more : List Char) :
      charsOnto (more ++ read) units = (charsOnto more units).map (read.reverse ++ ·) := by
    fun_induction charsOnto more units <;> rw [charsOnto.eq_def] <;> simp_all
  exact general []

end ClassAudit.Text.CodeUnit
