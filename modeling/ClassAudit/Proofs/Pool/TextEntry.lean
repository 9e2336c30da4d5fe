import ClassAudit.Proofs.Pool.Outcomes
import ClassAudit.Proofs.Text.Encodings

/-!
# What a text entry may hold

`text_entry_in_one_encoding` says of every payload that a text entry may have what becomes of it.
It is read as a text if it is this text in standard UTF-8 or in modified UTF-8, and it is refused if
it is neither of any text.  As no bytes are two texts, nothing is read in two ways, and a payload
that spells one of its characters as only the modified encoding does and another one as only the
standard encoding does is refused.

## Strategy

The length in front of a payload delimits it, so the fate of the entry is that of the payload
(`gives_read_textEntry_iff`, `fails_read_textEntry_iff`); what becomes of a payload is a matter of
the two encodings alone (`Text.Payload.decode?_eq_some_iff`, `Text.Payload.decode?_spelled_iff`).
-/

namespace ClassAudit.Constant

open Text (Encoding)

/-- The bytes of a text entry: its kind, the length of the payload, the payload. -/
def textEntry (payload : Bytes) : Bytes :=
  1 :: (Bytes.ofUInt16 (.ofNat payload.length) ++ payload)

/-- The payload of an entry can be told from the bytes behind it. -/
theorem payload_eq_of_textEntry_append {payload other rest : Bytes}
    (hbytes : textEntry payload ++ rest = textEntry other ++ rest) : payload = other := by
  have hentry : textEntry payload = textEntry other := List.append_cancel_right hbytes
  have htail := (List.cons.inj hentry).2
  exact (List.append_inj htail rfl).2

/-- An entry is read as a text if its payload is. -/
theorem gives_read_textEntry_iff {payload rest : Bytes} {text : String}
    (hshort : payload.length < 65536) :
    Constant.read.Gives (textEntry payload ++ rest) (.utf8 text) rest ↔
      Text.Payload.decode? payload = some text := by
  rw [reads_read]
  constructor
  · rintro ⟨front, hbytes, hfront⟩
    cases hfront with
    | @utf8 _ other _ hreadable =>
      obtain rfl : payload = other := payload_eq_of_textEntry_append hbytes
      exact hreadable
  · intro hreadable
    exact ⟨textEntry payload, rfl, .utf8 hshort hreadable⟩

/-- An entry is refused if its payload is. -/
theorem fails_read_textEntry_iff {payload rest : Bytes} (hshort : payload.length < 65536) :
    Constant.read.Fails (textEntry payload ++ rest) .invalidText rest ↔
      Text.Payload.decode? payload = none := by
  rw [fails_read_invalidText_iff]
  constructor
  · rintro ⟨other, -, hnone, hbytes⟩
    have hentry : textEntry payload ++ rest = textEntry other ++ rest := by
      rw [hbytes, textEntry, List.cons_append, List.append_assoc]
      rfl
    rw [payload_eq_of_textEntry_append hentry]
    exact hnone
  · intro hnone
    refine ⟨payload, hshort, hnone, ?_⟩
    rw [textEntry, List.cons_append, List.append_assoc]
    rfl

/-- A character spelled as only the modified encoding does and one spelled as only the standard
encoding does are never read together. -/
theorem decode?_spelled_eq_none {parts : List (Encoding × Char)} {first second : Char}
    (hfirst : (.modified, first) ∈ parts) (hmodified : Encoding.Peculiar first)
    (hsecond : (.standard, second) ∈ parts) (hstandard : Encoding.Peculiar second) :
    Text.Payload.decode? (Encoding.spelled parts) = none := by
  have hdifferent {character : Char} (hpeculiar : Encoding.Peculiar character) :
      Encoding.modified.ofChar character ≠ Encoding.standard.ofChar character := by
    intro hequal
    exact Encoding.modified_append_ne_standard hpeculiar [] [] (by rw [hequal])
  rw [Option.eq_none_iff_forall_ne_some]
  intro text hread
  obtain ⟨-, encoding, hparts⟩ := Text.Payload.decode?_spelled_iff.mp hread
  cases encoding with
  | standard => exact hdifferent hmodified (hparts _ hfirst)
  | modified => exact hdifferent hstandard (hparts _ hsecond).symm

/-- **A text entry is in one encoding.**  It is read as the text of which its payload is the
standard or the modified encoding, so a text that fits is read from both of its encodings.  There is
at most one such text, and if there is none the entry is refused.  It is so if the payload spells
one character as only the modified encoding does and another one as only the standard encoding
does. -/
theorem text_entry_in_one_encoding {payload : Bytes} (hshort : payload.length < 65536)
    (rest : Bytes) :
    (∀ text, Constant.read.Gives (textEntry payload ++ rest) (.utf8 text) rest ↔
      payload = Encoding.standard.ofText text ∨ payload = Encoding.modified.ofText text) ∧
    ((∀ (encoding : Encoding) text, payload ≠ encoding.ofText text) →
      Constant.read.Fails (textEntry payload ++ rest) .invalidText rest) ∧
    (∀ (encoding next : Encoding) text other,
      payload = encoding.ofText text → payload = next.ofText other → text = other) ∧
    ∀ parts first second, payload = Encoding.spelled parts →
      (.modified, first) ∈ parts → Encoding.Peculiar first →
      (.standard, second) ∈ parts → Encoding.Peculiar second →
      Constant.read.Fails (textEntry payload ++ rest) .invalidText rest := by
  refine ⟨fun text => ?_, fun hneither => ?_, fun encoding next text other htext hother => ?_, ?_⟩
  · rw [gives_read_textEntry_iff hshort, Text.Payload.decode?_eq_some_iff]
    constructor
    · rintro ⟨encoding, hpayload⟩
      cases encoding with
      | standard => exact .inl hpayload
      | modified => exact .inr hpayload
    · rintro (hpayload | hpayload)
      · exact ⟨_, hpayload⟩
      · exact ⟨_, hpayload⟩
  · rw [fails_read_textEntry_iff hshort, Option.eq_none_iff_forall_ne_some]
    intro text hread
    obtain ⟨encoding, hpayload⟩ := Text.Payload.decode?_eq_some_iff.mp hread
    exact hneither encoding text hpayload
  · exact Encoding.eq_of_ofText_eq (htext.symm.trans hother)
  · rintro parts first second rfl hfirst hmodified hsecond hstandard
    rw [fails_read_textEntry_iff hshort]
    exact decode?_spelled_eq_none hfirst hmodified hsecond hstandard

/-- Zero is read from either of its spellings, and refused in both beside each other. -/
theorem zero_in_either_spelling :
    Constant.read.Gives (textEntry [0xC0, 0x80]) (.utf8 "\x00") [] ∧
      Constant.read.Gives (textEntry [0x00]) (.utf8 "\x00") [] ∧
        Constant.read.Fails (textEntry [0xC0, 0x80, 0x00]) .invalidText [] := by
  refine ⟨?_, ?_, ?_⟩
  · exact ((text_entry_in_one_encoding (by decide) []).1 _).mpr (.inr rfl)
  · exact ((text_entry_in_one_encoding (by decide) []).1 _).mpr (.inl rfl)
  · apply (text_entry_in_one_encoding (by decide) []).2.2.2
      [(.modified, '\x00'), (.standard, '\x00')] '\x00' '\x00' rfl
    · exact List.mem_cons_self
    · exact .inl rfl
    · exact List.mem_cons_of_mem _ List.mem_cons_self
    · exact .inl rfl

end ClassAudit.Constant
