import ClassAudit.Text.ModifiedUtf8
import Mathlib

/-!
# Modified UTF-8 is read back exactly

`decode?_eq_some_iff` says that the bytes of a text in modified UTF-8 are read back, and that
nothing else is: no other bytes give the text, and bytes that are the encoding of no text give
none.

## Strategy

The encoding has two layers, and each has the same pair of facts.

* Characters are written in code units: what is written for one character is taken off the front
  again (`CodeUnit.chars?_ofChar_append`), and only what was written is taken
  (`CodeUnit.eq_flatMap_of_chars?`).
* Code units are written in bytes: `units?_encodeUnit_append` and `eq_flatMap_of_units?`.

Reading puts the layers one behind the other, and so does writing.
-/

namespace ClassAudit.Text

/-- The number of a character lies below or above the halves of pairs. -/
theorem toNat_char_cases (character : Char) :
    character.toNat < 0xD800 ∨ 0xE000 ≤ character.toNat ∧ character.toNat < 0x110000 := by
  have hvalid := character.valid
  simp only [UInt32.isValidChar, Nat.isValidChar] at hvalid
  show character.val.toNat < _ ∨ _ ≤ character.val.toNat ∧ character.val.toNat < _
  omega

/-- A byte holds every number below `0x100`. -/
theorem toNat_ofNat_byte {number : Nat} (hnumber : number < 0x100) :
    (UInt8.ofNat number).toNat = number :=
  UInt8.toNat_ofNat_of_lt' hnumber

namespace CodeUnit

theorem isHigh_iff {unit : Nat} : isHigh unit ↔ 0xD800 ≤ unit ∧ unit < 0xDC00 := by
  simp [isHigh]

theorem isLow_iff {unit : Nat} : isLow unit ↔ 0xDC00 ≤ unit ∧ unit < 0xE000 := by
  simp [isLow]

/-- A unit that is not half of a pair is a character by itself. -/
theorem ofChar_ofNat {unit : Nat} (hsmall : unit < 0x10000) (hlow : ¬ isLow unit)
    (hhigh : ¬ isHigh unit) : ofChar (.ofNat unit) = [unit] := by
  have hvalid : unit.isValidChar := by
    rw [isLow_iff] at hlow
    rw [isHigh_iff] at hhigh
    unfold Nat.isValidChar
    omega
  have hnumber : (Char.ofNat unit).toNat = unit := by rw [Char.toNat_ofNat, if_pos hvalid]
  rw [ofChar, hnumber, if_pos hsmall]

/-- A high and a low unit are the pair of their character. -/
theorem ofChar_paired {high low : Nat} (hhigh : isHigh high) (hlow : isLow low) :
    ofChar (paired high low) = [high, low] := by
  rw [isLow_iff] at hlow
  rw [isHigh_iff] at hhigh
  have hvalid : (0x10000 + (high - 0xD800) * 0x400 + (low - 0xDC00)).isValidChar := by
    unfold Nat.isValidChar
    omega
  have hnumber : (paired high low).toNat = 0x10000 + (high - 0xD800) * 0x400 + (low - 0xDC00) := by
    rw [paired, Char.toNat_ofNat, if_pos hvalid]
  have hlarge : ¬ (paired high low).toNat < 0x10000 := by omega
  have hupper : 0xD800 + ((paired high low).toNat - 0x10000) / 0x400 = high := by omega
  have hlower : 0xDC00 + ((paired high low).toNat - 0x10000) % 0x400 = low := by omega
  rw [ofChar, if_neg hlarge, hupper, hlower]

/-- What is read onto other characters was written by what is behind them. -/
theorem eq_flatMap_of_charsOnto {read text : List Char} {units : List Nat}
    (hsmall : ∀ unit ∈ units, unit < 0x10000) (hread : charsOnto read units = some text) :
    ∃ later, text = read.reverse ++ later ∧ units = later.flatMap ofChar := by
  fun_induction charsOnto read units with
  | case1 read =>
    cases hread
    exact ⟨[], by simp, rfl⟩
  | case2 read unit rest hlow => cases hread
  | case3 read unit hlow hhigh => cases hread
  | case4 read unit hlow hhigh next rest hnext ih =>
    obtain ⟨later, rfl, hrest⟩ := ih (fun other hother => hsmall other (by simp [hother])) hread
    refine ⟨paired unit next :: later, by simp, ?_⟩
    rw [List.flatMap_cons, ofChar_paired hhigh hnext, hrest]
    rfl
  | case5 read unit hlow hhigh next rest hnext => cases hread
  | case6 read unit rest hlow hhigh ih =>
    obtain ⟨later, rfl, hrest⟩ := ih (fun other hother => hsmall other (by simp [hother])) hread
    refine ⟨.ofNat unit :: later, by simp, ?_⟩
    rw [List.flatMap_cons, ofChar_ofNat (hsmall unit (by simp)) hlow hhigh, hrest]
    rfl

/-- Only the units of a text are read as this text. -/
theorem eq_flatMap_of_chars? {units : List Nat} {text : List Char}
    (hsmall : ∀ unit ∈ units, unit < 0x10000) (hread : chars? units = some text) :
    units = text.flatMap ofChar := by
  obtain ⟨later, rfl, hunits⟩ := eq_flatMap_of_charsOnto hsmall hread
  exact hunits

/-- The units of a character are taken off the front as this character. -/
theorem chars?_ofChar_append (character : Char) (rest : List Nat) :
    chars? (ofChar character ++ rest) = (chars? rest).map (character :: ·) := by
  have hcases := toNat_char_cases character
  unfold ofChar
  by_cases hsmall : character.toNat < 0x10000
  · have hlow : ¬ isLow character.toNat := by
      rw [isLow_iff]
      omega
    have hhigh : ¬ isHigh character.toNat := by
      rw [isHigh_iff]
      omega
    rw [if_pos hsmall, List.singleton_append, chars?, charsOnto.eq_def]
    simp only [hlow, hhigh, Char.ofNat_toNat]
    exact charsOnto_eq_map _ _
  · have hrange : 0x10000 ≤ character.toNat ∧ character.toNat < 0x110000 := by omega
    generalize hupper : 0xD800 + (character.toNat - 0x10000) / 0x400 = high
    generalize hlower : 0xDC00 + (character.toNat - 0x10000) % 0x400 = low
    have hnotLow : ¬ isLow high := by
      rw [isLow_iff]
      omega
    have hhigh : isHigh high := by
      rw [isHigh_iff]
      omega
    have hlow : isLow low := by
      rw [isLow_iff]
      omega
    have hpaired : paired high low = character := by
      have hnumber : 0x10000 + (high - 0xD800) * 0x400 + (low - 0xDC00) = character.toNat := by
        omega
      rw [paired, hnumber, Char.ofNat_toNat]
    rw [if_neg hsmall, List.cons_append, List.singleton_append, chars?, charsOnto.eq_def]
    simp only [hnotLow, hhigh, hlow, hpaired, if_true]
    exact charsOnto_eq_map _ _

theorem chars?_flatMap (text : List Char) : chars? (text.flatMap ofChar) = some text := by
  induction text with
  | nil => rfl
  | cons character later ih => rw [List.flatMap_cons, chars?_ofChar_append, ih, Option.map_some]

/-- No unit needs more than sixteen bits. -/
theorem lt_of_mem_ofChar {character : Char} {unit : Nat} (hunit : unit ∈ ofChar character) :
    unit < 0x10000 := by
  have hcases := toNat_char_cases character
  unfold ofChar at hunit
  split at hunit
  · next hsmall =>
    rw [List.mem_singleton] at hunit
    omega
  · simp only [List.mem_cons, List.not_mem_nil, or_false] at hunit
    omega

end CodeUnit

namespace ModifiedUtf8

/-! ## Units in bytes -/

theorem isOne_iff {first : UInt8} : isOne first ↔ first.toNat ≠ 0 ∧ first.toNat < 0x80 := by
  simp [isOne, UInt8.lt_iff_toNat_lt, ← UInt8.toNat_inj]

theorem isContinuation_iff {byte : UInt8} :
    isContinuation byte ↔ 0x80 ≤ byte.toNat ∧ byte.toNat < 0xC0 := by
  simp [isContinuation, UInt8.le_iff_toNat_le, UInt8.lt_iff_toNat_lt]

theorem isTwo_iff {first second : UInt8} :
    isTwo first second ↔ (0xC0 ≤ first.toNat ∧ first.toNat < 0xE0) ∧
      (0x80 ≤ second.toNat ∧ second.toNat < 0xC0) ∧
        (ofTwo first second = 0 ∨ 0x80 ≤ ofTwo first second) := by
  simp [isTwo, isContinuation_iff, UInt8.le_iff_toNat_le, UInt8.lt_iff_toNat_lt, and_assoc]

theorem isThree_iff {first second third : UInt8} :
    isThree first second third ↔ (0xE0 ≤ first.toNat ∧ first.toNat < 0xF0) ∧
      (0x80 ≤ second.toNat ∧ second.toNat < 0xC0) ∧ (0x80 ≤ third.toNat ∧ third.toNat < 0xC0) ∧
        0x800 ≤ ofThree first second third := by
  simp [isThree, isContinuation_iff, UInt8.le_iff_toNat_le, UInt8.lt_iff_toNat_lt, and_assoc]

/-- A number taken from one byte is written in this byte. -/
theorem encodeUnit_of_isOne {first : UInt8} (hone : isOne first) :
    encodeUnit first.toNat = [first] := by
  rw [encodeUnit, if_pos (isOne_iff.mp hone), UInt8.ofNat_toNat]

/-- A number taken from two bytes is written in these two bytes. -/
theorem encodeUnit_of_isTwo {first second : UInt8} (htwo : isTwo first second) :
    ofTwo first second < 0x10000 ∧ encodeUnit (ofTwo first second) = [first, second] := by
  obtain ⟨hfirst, hsecond, hneeded⟩ := isTwo_iff.mp htwo
  unfold ofTwo at hneeded ⊢
  generalize hunit : (first.toNat - 0xC0) * 0x40 + (second.toNat - 0x80) = unit at hneeded ⊢
  have hupper : 0xC0 + unit / 0x40 = first.toNat := by omega
  have hlower : 0x80 + unit % 0x40 = second.toNat := by omega
  have hnotOne : ¬ (unit ≠ 0 ∧ unit < 0x80) := by omega
  have hsmall : unit < 0x800 := by omega
  refine ⟨by omega, ?_⟩
  rw [encodeUnit, if_neg hnotOne, if_pos hsmall, hupper, hlower, UInt8.ofNat_toNat,
    UInt8.ofNat_toNat]

/-- A number taken from three bytes is written in these three bytes. -/
theorem encodeUnit_of_isThree {first second third : UInt8} (hthree : isThree first second third) :
    ofThree first second third < 0x10000 ∧
      encodeUnit (ofThree first second third) = [first, second, third] := by
  obtain ⟨hfirst, hsecond, hthird, hneeded⟩ := isThree_iff.mp hthree
  unfold ofThree at hneeded ⊢
  generalize hunit : (first.toNat - 0xE0) * 0x1000 + (second.toNat - 0x80) * 0x40 +
    (third.toNat - 0x80) = unit at hneeded ⊢
  have hupper : 0xE0 + unit / 0x1000 = first.toNat := by omega
  have hmiddle : 0x80 + unit / 0x40 % 0x40 = second.toNat := by omega
  have hlower : 0x80 + unit % 0x40 = third.toNat := by omega
  have hnotOne : ¬ (unit ≠ 0 ∧ unit < 0x80) := by omega
  have hnotTwo : ¬ unit < 0x800 := by omega
  refine ⟨by omega, ?_⟩
  rw [encodeUnit, if_neg hnotOne, if_neg hnotTwo, hupper, hmiddle, hlower, UInt8.ofNat_toNat,
    UInt8.ofNat_toNat, UInt8.ofNat_toNat]

/-- What is read onto other units was written by what is behind them. -/
theorem eq_flatMap_of_unitsOnto {read units : List Nat} {bytes : Bytes}
    (hread : unitsOnto read bytes = some units) :
    ∃ later, units = read.reverse ++ later ∧ (∀ unit ∈ later, unit < 0x10000) ∧
      bytes = later.flatMap encodeUnit := by
  fun_induction unitsOnto read bytes with
  | case1 read =>
    cases hread
    exact ⟨[], by simp, by simp, rfl⟩
  | case2 read first rest hone ih =>
    obtain ⟨later, rfl, hlater, hrest⟩ := ih hread
    have hsmall := (isOne_iff.mp hone).2
    refine ⟨first.toNat :: later, by simp, ?_, ?_⟩
    · exact List.forall_mem_cons.mpr ⟨by omega, hlater⟩
    · rw [List.flatMap_cons, encodeUnit_of_isOne hone, ← hrest, List.singleton_append]
  | case3 read first hone => cases hread
  | case4 read first hone second rest htwo ih =>
    obtain ⟨later, rfl, hlater, hrest⟩ := ih hread
    obtain ⟨hsmall, hbytes⟩ := encodeUnit_of_isTwo htwo
    refine ⟨ofTwo first second :: later, by simp, List.forall_mem_cons.mpr ⟨hsmall, hlater⟩, ?_⟩
    rw [List.flatMap_cons, hbytes, ← hrest, List.cons_append, List.singleton_append]
  | case5 read first hone second htwo => cases hread
  | case6 read first hone second htwo third rest hthree ih =>
    obtain ⟨later, rfl, hlater, hrest⟩ := ih hread
    obtain ⟨hsmall, hbytes⟩ := encodeUnit_of_isThree hthree
    refine ⟨ofThree first second third :: later, by simp,
      List.forall_mem_cons.mpr ⟨hsmall, hlater⟩, ?_⟩
    rw [List.flatMap_cons, hbytes, ← hrest, List.cons_append, List.cons_append,
      List.singleton_append]
  | case7 read first hone second htwo third rest hthree => cases hread

/-- Only the bytes of some units are read as these units. -/
theorem eq_flatMap_of_units? {bytes : Bytes} {units : List Nat}
    (hread : units? bytes = some units) :
    (∀ unit ∈ units, unit < 0x10000) ∧ bytes = units.flatMap encodeUnit := by
  obtain ⟨later, rfl, hlater⟩ := eq_flatMap_of_unitsOnto hread
  exact hlater

/-- One unit taken off the front, by the number of bytes it is in. -/
theorem units?_of_isOne {first : UInt8} {rest : Bytes} (hone : isOne first) :
    units? (first :: rest) = (units? rest).map (first.toNat :: ·) := by
  rw [units?, unitsOnto.eq_def]
  simp only [hone, if_true]
  exact unitsOnto_eq_map _ _

theorem units?_of_isTwo {first second : UInt8} {rest : Bytes} (hone : ¬ isOne first)
    (htwo : isTwo first second) :
    units? (first :: second :: rest) = (units? rest).map (ofTwo first second :: ·) := by
  rw [units?, unitsOnto.eq_def]
  simp only [hone, htwo, if_true]
  exact unitsOnto_eq_map _ _

theorem units?_of_isThree {first second third : UInt8} {rest : Bytes} (hone : ¬ isOne first)
    (htwo : ¬ isTwo first second) (hthree : isThree first second third) :
    units? (first :: second :: third :: rest) =
      (units? rest).map (ofThree first second third :: ·) := by
  rw [units?, unitsOnto.eq_def]
  simp only [hone, htwo, hthree, if_true]
  exact unitsOnto_eq_map _ _

/-- The bytes of a unit are taken off the front as this unit. -/
theorem units?_encodeUnit_append {unit : Nat} (hunit : unit < 0x10000) (rest : Bytes) :
    units? (encodeUnit unit ++ rest) = (units? rest).map (unit :: ·) := by
  unfold encodeUnit
  split
  · next hone =>
    have hfirst : (UInt8.ofNat unit).toNat = unit := toNat_ofNat_byte (by omega)
    rw [List.singleton_append, units?_of_isOne (isOne_iff.mpr (by rw [hfirst]; exact hone)), hfirst]
  · next hone =>
    split
    · next htwo =>
      have hfirst : (UInt8.ofNat (0xC0 + unit / 0x40)).toNat = 0xC0 + unit / 0x40 :=
        toNat_ofNat_byte (by omega)
      have hsecond : (UInt8.ofNat (0x80 + unit % 0x40)).toNat = 0x80 + unit % 0x40 :=
        toNat_ofNat_byte (by omega)
      generalize UInt8.ofNat (0xC0 + unit / 0x40) = first at hfirst ⊢
      generalize UInt8.ofNat (0x80 + unit % 0x40) = second at hsecond ⊢
      have hvalue : ofTwo first second = unit := by
        unfold ofTwo
        omega
      rw [List.cons_append, List.singleton_append, units?_of_isTwo, hvalue]
      · rw [isOne_iff]
        omega
      · rw [isTwo_iff, hvalue]
        omega
    · next htwo =>
      have hfirst : (UInt8.ofNat (0xE0 + unit / 0x1000)).toNat = 0xE0 + unit / 0x1000 :=
        toNat_ofNat_byte (by omega)
      have hsecond : (UInt8.ofNat (0x80 + unit / 0x40 % 0x40)).toNat = 0x80 + unit / 0x40 % 0x40 :=
        toNat_ofNat_byte (by omega)
      have hthird : (UInt8.ofNat (0x80 + unit % 0x40)).toNat = 0x80 + unit % 0x40 :=
        toNat_ofNat_byte (by omega)
      generalize UInt8.ofNat (0xE0 + unit / 0x1000) = first at hfirst ⊢
      generalize UInt8.ofNat (0x80 + unit / 0x40 % 0x40) = second at hsecond ⊢
      generalize UInt8.ofNat (0x80 + unit % 0x40) = third at hthird ⊢
      have hvalue : ofThree first second third = unit := by
        unfold ofThree
        omega
      rw [List.cons_append, List.cons_append, List.singleton_append, units?_of_isThree, hvalue]
      · rw [isOne_iff]
        omega
      · rw [isTwo_iff]
        omega
      · rw [isThree_iff, hvalue]
        omega

theorem units?_flatMap {units : List Nat} (hunits : ∀ unit ∈ units, unit < 0x10000) :
    units? (units.flatMap encodeUnit) = some units := by
  induction units with
  | nil => rfl
  | cons unit later ih =>
    obtain ⟨hunit, hlater⟩ := List.forall_mem_cons.mp hunits
    rw [List.flatMap_cons, units?_encodeUnit_append hunit, ih hlater, Option.map_some]

/-! ## Both layers -/

/-- Modified UTF-8 is read back exactly: the bytes that give a text are those of the text. -/
theorem decode?_eq_some_iff {bytes : Bytes} {text : List Char} :
    decode? bytes = some text ↔ bytes = encode text := by
  constructor
  · intro hread
    obtain ⟨units, hunits, hchars⟩ := Option.bind_eq_some_iff.mp hread
    obtain ⟨hsmall, hbytes⟩ := eq_flatMap_of_units? hunits
    rw [encode, ← CodeUnit.eq_flatMap_of_chars? hsmall hchars, hbytes]
  · rintro rfl
    have hsmall : ∀ unit ∈ text.flatMap CodeUnit.ofChar, unit < 0x10000 := by
      intro unit hunit
      obtain ⟨character, -, hmem⟩ := List.mem_flatMap.mp hunit
      exact CodeUnit.lt_of_mem_ofChar hmem
    rw [decode?, encode, units?_flatMap hsmall, Option.bind_some, CodeUnit.chars?_flatMap]

end ModifiedUtf8

end ClassAudit.Text
