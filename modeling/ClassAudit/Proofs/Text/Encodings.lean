import ClassAudit.Proofs.Text.ModifiedUtf8
import ClassAudit.Text.Payload

/-!
# A text is in one of two encodings

The two encodings differ in two kinds of characters only: zero, and the characters from `0x10000`
on.  `decode?_eq_some_iff` says that a payload is read as a text if and only if one of the encodings
writes this text so, and `eq_of_ofText_eq` that it is then the only text.  `decode?_spelled_iff` is
about payloads whose characters are spelled in any of the two ways, one by one: they are read if and
only if one encoding accounts for all the spellings.

## Strategy

No spelling of a character, in either encoding, begins another character's spelling: this is
`eq_of_ofChar_append`, and everything else follows from it by induction on the characters.  Standard
spellings are told apart by the decoder of the library.  The other spellings of the modified
encoding begin with a byte, or with two, that no standard spelling begins with
(`modified_append_ne_standard`).
-/

namespace ClassAudit.Text

/-- Half of a pair in three bytes, as UTF-8 would write its number. -/
def ofHalf (half : Nat) : Bytes :=
  [.ofNat (0xE0 + half / 0x1000), .ofNat (0x80 + half / 0x40 % 0x40), .ofNat (0x80 + half % 0x40)]

/-- The encodings that a text may be in. -/
inductive Encoding where
  | standard
  | modified
deriving DecidableEq, Repr

namespace Encoding

/-- The spelling of a character. -/
def ofChar : Encoding → Char → Bytes
  | standard, character => String.utf8EncodeChar character
  | modified, character =>
    if character.toNat = 0 then [0xC0, 0x80]
    else if character.toNat < 0x10000 then String.utf8EncodeChar character
    else ofHalf (0xD800 + (character.toNat - 0x10000) / 0x400) ++
      ofHalf (0xDC00 + (character.toNat - 0x10000) % 0x400)

/-- The bytes of a text. -/
def ofText (encoding : Encoding) (text : String) : Bytes :=
  text.toList.flatMap encoding.ofChar

/-- The spelling of the character is the modified encoding's own. -/
def Peculiar (character : Char) : Prop :=
  character.toNat = 0 ∨ 0x10000 ≤ character.toNat

theorem not_peculiar_iff {character : Char} :
    ¬ Peculiar character ↔ character.toNat ≠ 0 ∧ character.toNat < 0x10000 := by
  rw [Peculiar, not_or, not_le]

/-- All other characters are spelled alike. -/
theorem ofChar_of_not_peculiar {character : Char} (halike : ¬ Peculiar character)
    (encoding : Encoding) : encoding.ofChar character = standard.ofChar character := by
  obtain ⟨hpositive, hsmall⟩ := not_peculiar_iff.mp halike
  cases encoding with
  | standard => rfl
  | modified => simp only [ofChar, if_neg hpositive, if_pos hsmall]

theorem ofChar_ne_nil (encoding : Encoding) (character : Char) :
    encoding.ofChar character ≠ [] := by
  cases encoding with
  | standard => exact String.utf8EncodeChar_ne_nil
  | modified =>
    rw [ofChar]
    split_ifs
    · exact List.cons_ne_nil _ _
    · exact String.utf8EncodeChar_ne_nil
    · exact List.cons_ne_nil _ _

/-- UTF-8 in numbers: one, two, three or four bytes, as many as the character needs. -/
theorem standard_ofChar (character : Char) :
    standard.ofChar character =
      if character.toNat < 0x80 then [.ofNat character.toNat]
      else if character.toNat < 0x800 then
        [.ofNat (0xC0 + character.toNat / 0x40), .ofNat (0x80 + character.toNat % 0x40)]
      else if character.toNat < 0x10000 then ofHalf character.toNat
      else [.ofNat (0xF0 + character.toNat / 0x40000),
        .ofNat (0x80 + character.toNat / 0x1000 % 0x40),
        .ofNat (0x80 + character.toNat / 0x40 % 0x40), .ofNat (0x80 + character.toNat % 0x40)] := by
  have hvalid := toNat_char_cases character
  show String.utf8EncodeChar character = _
  rw [String.utf8EncodeChar.eq_1, Char.toNat_val, ofHalf]
  generalize character.toNat = number at hvalid ⊢
  by_cases hone : number < 0x80
  · rw [if_pos hone, if_pos (by omega)]
  by_cases htwo : number < 0x800
  · have hlead : number / 64 % 32 + 192 = 0xC0 + number / 0x40 := by omega
    rw [if_neg hone, if_neg (by omega), if_pos htwo, if_pos (by omega), hlead, Nat.add_comm 128]
  by_cases hthree : number < 0x10000
  · have hlead : number / 4096 % 16 + 224 = 0xE0 + number / 0x1000 := by omega
    rw [if_neg hone, if_neg (by omega), if_neg htwo, if_neg (by omega), if_pos hthree,
      if_pos (by omega), hlead, Nat.add_comm 128, Nat.add_comm 128]
  · have hlead : number / 262144 % 8 + 240 = 0xF0 + number / 0x40000 := by omega
    rw [if_neg hone, if_neg (by omega), if_neg htwo, if_neg (by omega), if_neg hthree,
      if_neg (by omega), hlead, Nat.add_comm 128, Nat.add_comm 128, Nat.add_comm 128]

/-! ## The encodings are those that are written and read -/

theorem standard_eq (text : String) : Payload.standard text = standard.ofText text := by
  have hbytes : text.toByteArray = (text.toList.flatMap standard.ofChar).toByteArray :=
    String.utf8Encode_toList.symm
  rw [Payload.standard, String.toUTF8_eq_toByteArray, hbytes]
  simp [ofText]

/-- Below `0x10000` the modified encoding writes a character as UTF-8 does, except zero. -/
theorem encodeUnit_toNat {character : Char} (halike : ¬ Peculiar character) :
    ModifiedUtf8.encodeUnit character.toNat = standard.ofChar character := by
  obtain ⟨hpositive, hsmall⟩ := not_peculiar_iff.mp halike
  rw [standard_ofChar, ModifiedUtf8.encodeUnit, if_pos hsmall, ofHalf]
  simp only [ne_eq, hpositive, not_false_eq_true, true_and]

theorem encodeUnit_eq_ofHalf {half : Nat} (hlarge : 0x800 ≤ half) :
    ModifiedUtf8.encodeUnit half = ofHalf half := by
  rw [ModifiedUtf8.encodeUnit, if_neg (by omega), if_neg (by omega), ofHalf]

theorem flatMap_encodeUnit_ofChar (character : Char) :
    (CodeUnit.ofChar character).flatMap ModifiedUtf8.encodeUnit = modified.ofChar character := by
  by_cases hpeculiar : Peculiar character
  · rw [CodeUnit.ofChar, ofChar]
    rcases hpeculiar with hzero | hlarge
    · rw [hzero]
      rfl
    · rw [if_neg (by omega), if_neg (by omega), if_neg (by omega), List.flatMap_cons,
        List.flatMap_cons, encodeUnit_eq_ofHalf (by omega), encodeUnit_eq_ofHalf (by omega),
        List.flatMap_nil, List.append_nil]
  · rw [ofChar_of_not_peculiar hpeculiar, ← encodeUnit_toNat hpeculiar, CodeUnit.ofChar,
      if_pos (not_peculiar_iff.mp hpeculiar).2, List.flatMap_singleton]

theorem modified_eq (text : String) : Payload.modified text = modified.ofText text := by
  rw [Payload.modified, ModifiedUtf8.encode, List.flatMap_assoc, ofText]
  exact congrArg text.toList.flatMap (funext flatMap_encodeUnit_ofChar)

/-! ## No spelling begins another one -/

theorem eq_of_standard_append {first second : Char} {behind other : Bytes}
    (hbytes : standard.ofChar first ++ behind = standard.ofChar second ++ other) :
    first = second := by
  have hdecode (character : Char) (later : Bytes) :
      (standard.ofChar character ++ later).toByteArray.utf8DecodeChar? 0 = some character := by
    rw [List.toByteArray_append]
    exact ByteArray.utf8DecodeChar?_utf8EncodeChar_append
  have hfirst := hdecode first behind
  rw [hbytes, hdecode] at hfirst
  exact (Option.some.inj hfirst).symm

/-- No standard spelling begins with `0xC0`, and one that begins with `0xED` goes on below `0xA0`,
because it stands for no half of a pair. -/
theorem standard_begins (character : Char) :
    ∃ lead later, standard.ofChar character = lead :: later ∧ lead.toNat ≠ 0xC0 ∧
      (lead.toNat = 0xED → ∃ next last, later = next :: last ∧ next.toNat < 0xA0) := by
  have hvalid := toNat_char_cases character
  rw [standard_ofChar, ofHalf]
  split_ifs
  · refine ⟨_, _, rfl, ?_⟩
    rw [toNat_ofNat_byte (by omega)]
    omega
  · refine ⟨_, _, rfl, ?_⟩
    rw [toNat_ofNat_byte (by omega)]
    omega
  · refine ⟨_, _, rfl, ?_⟩
    rw [toNat_ofNat_byte (by omega)]
    refine ⟨by omega, fun hlead => ⟨_, _, rfl, ?_⟩⟩
    rw [toNat_ofNat_byte (by omega)]
    omega
  · refine ⟨_, _, rfl, ?_⟩
    rw [toNat_ofNat_byte (by omega)]
    omega

/-- The modified encoding's own spellings begin with `0xC0`, or with `0xED` and then a byte from
`0xA0` on. -/
theorem modified_begins {character : Char} (hpeculiar : Peculiar character) :
    ∃ lead next later, modified.ofChar character = lead :: next :: later ∧
      (lead.toNat = 0xC0 ∧ character.toNat = 0 ∨
        lead.toNat = 0xED ∧ 0xA0 ≤ next.toNat ∧ 0x10000 ≤ character.toNat) := by
  have hvalid := toNat_char_cases character
  rw [ofChar]
  rcases hpeculiar with hzero | hlarge
  · rw [if_pos hzero]
    exact ⟨_, _, _, rfl, .inl ⟨rfl, hzero⟩⟩
  · rw [if_neg (by omega), if_neg (by omega), ofHalf]
    refine ⟨_, _, _, rfl, .inr ?_⟩
    rw [toNat_ofNat_byte (by omega), toNat_ofNat_byte (by omega)]
    omega

theorem modified_append_ne_standard {first second : Char} (hpeculiar : Peculiar first)
    (behind other : Bytes) :
    modified.ofChar first ++ behind ≠ standard.ofChar second ++ other := by
  intro hbytes
  obtain ⟨lead, next, later, hmodified, hbegins⟩ := modified_begins hpeculiar
  obtain ⟨first, last, hstandard, hzero, hhalf⟩ := standard_begins second
  rw [hmodified, hstandard, List.cons_append, List.cons_append, List.cons_append] at hbytes
  obtain ⟨rfl, hlater⟩ := List.cons.inj hbytes
  rcases hbegins with ⟨hlead, -⟩ | ⟨hlead, hnext, -⟩
  · exact hzero hlead
  · obtain ⟨second, last, rfl, hsecond⟩ := hhalf hlead
    obtain ⟨rfl, -⟩ := List.cons.inj hlater
    omega

/-- The number of a half is told by its three bytes. -/
theorem eq_of_ofHalf_append {half next : Nat} (hhalf : half < 0x10000) (hnext : next < 0x10000)
    {behind other : Bytes} (hbytes : ofHalf half ++ behind = ofHalf next ++ other) :
    half = next ∧ behind = other := by
  simp only [ofHalf, List.cons_append, List.nil_append, List.cons.injEq, ← UInt8.toNat_inj,
    UInt8.toNat_ofNat'] at hbytes
  exact ⟨by omega, hbytes.2.2.2⟩

theorem eq_of_modified_append {first second : Char} (hfirst : Peculiar first)
    (hsecond : Peculiar second) {behind other : Bytes}
    (hbytes : modified.ofChar first ++ behind = modified.ofChar second ++ other) :
    first = second := by
  have hvalid := toNat_char_cases first
  have hother := toNat_char_cases second
  have hnumber : first.toNat = second.toNat := by
    obtain ⟨lead, _, _, hspelled, hbegins⟩ := modified_begins hfirst
    obtain ⟨_, _, _, hnext, hagain⟩ := modified_begins hsecond
    have hlead := hbytes
    rw [hspelled, hnext, List.cons_append, List.cons_append] at hlead
    obtain ⟨rfl, -⟩ := List.cons.inj hlead
    rcases hbegins with ⟨hlead, hzero⟩ | ⟨hlead, -, hlarge⟩
    · omega
    · have hlarger : 0x10000 ≤ second.toNat := by omega
      rw [ofChar, ofChar, if_neg (by omega), if_neg (by omega), if_neg (by omega),
        if_neg (by omega), List.append_assoc, List.append_assoc] at hbytes
      obtain ⟨hhigh, hlower⟩ := eq_of_ofHalf_append (by omega) (by omega) hbytes
      obtain ⟨hlow, -⟩ := eq_of_ofHalf_append (by omega) (by omega) hlower
      omega
  rw [← Char.ofNat_toNat first, hnumber, Char.ofNat_toNat]

/-- A spelling is the standard one or one of the modified encoding's own. -/
theorem ofChar_cases (encoding : Encoding) (character : Char) :
    encoding.ofChar character = standard.ofChar character ∨
      encoding = modified ∧ Peculiar character := by
  by_cases hpeculiar : Peculiar character
  · cases encoding with
    | standard => exact .inl rfl
    | modified => exact .inr ⟨rfl, hpeculiar⟩
  · exact .inl (ofChar_of_not_peculiar hpeculiar encoding)

/-- Bytes that begin with two spellings begin with one, of a single character. -/
theorem eq_of_ofChar_append {encoding next : Encoding} {first second : Char} {behind other : Bytes}
    (hbytes : encoding.ofChar first ++ behind = next.ofChar second ++ other) :
    first = second ∧ encoding.ofChar first = next.ofChar first ∧ behind = other := by
  have hspelling : first = second ∧ encoding.ofChar first = next.ofChar first := by
    rcases encoding.ofChar_cases first with hfirst | ⟨rfl, hfirst⟩
    · rcases next.ofChar_cases second with hsecond | ⟨rfl, hsecond⟩
      · rw [hfirst, hsecond] at hbytes
        obtain rfl := eq_of_standard_append hbytes
        exact ⟨rfl, by rw [hfirst, hsecond]⟩
      · rw [hfirst] at hbytes
        exact absurd hbytes.symm (modified_append_ne_standard hsecond _ _)
    · rcases next.ofChar_cases second with hsecond | ⟨rfl, hsecond⟩
      · rw [hsecond] at hbytes
        exact absurd hbytes (modified_append_ne_standard hfirst _ _)
      · exact ⟨eq_of_modified_append hfirst hsecond hbytes, rfl⟩
  obtain ⟨rfl, hequal⟩ := hspelling
  rw [hequal] at hbytes
  exact ⟨rfl, hequal, List.append_cancel_left hbytes⟩

/-! ## Characters spelled one by one -/

/-- The bytes of characters each of which is spelled in an encoding of its own. -/
def spelled (parts : List (Encoding × Char)) : Bytes :=
  parts.flatMap fun part => part.1.ofChar part.2

/-- Spellings that together are a text in one encoding are, one by one, those of this encoding. -/
theorem eq_of_spelled_eq {encoding : Encoding} {parts : List (Encoding × Char)} {text : List Char}
    (hbytes : spelled parts = text.flatMap encoding.ofChar) :
    text = parts.map Prod.snd ∧
      ∀ part ∈ parts, part.1.ofChar part.2 = encoding.ofChar part.2 := by
  induction parts generalizing text with
  | nil =>
    cases text with
    | nil => exact ⟨rfl, by simp⟩
    | cons character later =>
      have hempty := (List.append_eq_nil_iff.mp hbytes.symm).1
      exact absurd hempty (encoding.ofChar_ne_nil character)
  | cons part parts ih =>
    cases text with
    | nil =>
      have hempty := (List.append_eq_nil_iff.mp hbytes).1
      exact absurd hempty (part.1.ofChar_ne_nil part.2)
    | cons character later =>
      obtain ⟨rfl, hspelling, hbehind⟩ := eq_of_ofChar_append hbytes
      obtain ⟨rfl, hparts⟩ := ih hbehind
      exact ⟨rfl, List.forall_mem_cons.mpr ⟨hspelling, hparts⟩⟩

theorem spelled_eq {encoding : Encoding} {parts : List (Encoding × Char)}
    (hparts : ∀ part ∈ parts, part.1.ofChar part.2 = encoding.ofChar part.2) :
    spelled parts = (parts.map Prod.snd).flatMap encoding.ofChar := by
  rw [spelled, List.flatMap_map]
  exact List.flatMap_congr hparts

/-- No bytes are two texts, be it in the same encoding or in both. -/
theorem eq_of_ofText_eq {encoding next : Encoding} {text other : String}
    (hbytes : encoding.ofText text = next.ofText other) : text = other := by
  have hspelled : spelled (text.toList.map (encoding, ·)) = next.ofText other := by
    rw [← hbytes, spelled, List.flatMap_map]
    rfl
  obtain ⟨hcharacters, -⟩ := eq_of_spelled_eq hspelled
  rw [List.map_map] at hcharacters
  exact String.toList_injective (by rw [hcharacters]; exact (List.map_id' _).symm)

end Encoding

namespace Payload

/-! ## What is read -/

theorem ofStandard?_eq_some_iff {payload : Bytes} {text : String} :
    ofStandard? payload = some text ↔ payload = Encoding.standard.ofText text := by
  rw [← Encoding.standard_eq]
  refine ⟨fun hread => ?_, fun hbytes => hbytes ▸ ofStandard?_standard text⟩
  unfold ofStandard? String.fromUTF8? at hread
  split_ifs at hread with hvalid
  obtain rfl := Option.some.inj hread
  simp [standard, String.fromUTF8]

theorem ofModified?_eq_some_iff {payload : Bytes} {text : String} :
    ofModified? payload = some text ↔ payload = Encoding.modified.ofText text := by
  rw [← Encoding.modified_eq, ofModified?, Option.map_eq_some_iff, modified]
  simp only [ModifiedUtf8.decode?_eq_some_iff]
  refine ⟨?_, fun hbytes => ⟨text.toList, hbytes, String.ofList_toList⟩⟩
  rintro ⟨characters, rfl, rfl⟩
  rw [String.toList_ofList]

/-- A payload is read as a text if and only if one of the encodings writes the text so. -/
theorem decode?_eq_some_iff {payload : Bytes} {text : String} :
    decode? payload = some text ↔ ∃ encoding : Encoding, payload = encoding.ofText text := by
  rw [decode?, Option.orElse_eq_some]
  constructor
  · rintro (hstandard | ⟨-, hmodified⟩)
    · exact ⟨.standard, ofStandard?_eq_some_iff.mp hstandard⟩
    · exact ⟨.modified, ofModified?_eq_some_iff.mp hmodified⟩
  · rintro ⟨encoding, rfl⟩
    cases hstandard : ofStandard? (encoding.ofText text) with
    | some other =>
      obtain rfl := Encoding.eq_of_ofText_eq (ofStandard?_eq_some_iff.mp hstandard)
      exact .inl rfl
    | none =>
      cases encoding with
      | standard =>
        rw [ofStandard?_eq_some_iff.mpr rfl] at hstandard
        cases hstandard
      | modified => exact .inr ⟨rfl, ofModified?_eq_some_iff.mpr rfl⟩

/-- Characters spelled one by one are read if and only if one encoding has all the spellings. -/
theorem decode?_spelled_iff {parts : List (Encoding × Char)} {text : String} :
    decode? (Encoding.spelled parts) = some text ↔
      text.toList = parts.map Prod.snd ∧
        ∃ encoding : Encoding, ∀ part ∈ parts, part.1.ofChar part.2 = encoding.ofChar part.2 := by
  rw [decode?_eq_some_iff]
  constructor
  · rintro ⟨encoding, hbytes⟩
    obtain ⟨htext, hparts⟩ := Encoding.eq_of_spelled_eq hbytes
    exact ⟨htext, encoding, hparts⟩
  · rintro ⟨htext, encoding, hparts⟩
    refine ⟨encoding, ?_⟩
    rw [Encoding.spelled_eq hparts, Encoding.ofText, htext]

end Payload

end ClassAudit.Text
