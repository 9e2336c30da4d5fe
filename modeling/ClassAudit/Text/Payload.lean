import ClassAudit.Text.ModifiedUtf8

/-!
# The bytes of a text entry

A text entry of a constant pool may hold either of two encodings.  Bytes that are standard UTF-8
are read as such; all others are read as modified UTF-8, from their first byte on.  The two are
never mixed within one entry.
-/

namespace ClassAudit.Text.Payload

/-- The standard UTF-8 encoding of a text. -/
def standard (text : String) : Bytes :=
  text.toUTF8.data.toList

/-- The text of which the bytes are the standard encoding. -/
def ofStandard? (bytes : Bytes) : Option String :=
  String.fromUTF8? bytes.toByteArray

/-- Every text is read back from its standard encoding. -/
@[simp] theorem ofStandard?_standard (text : String) : ofStandard? (standard text) = some text := by
  have whole : (standard text).toByteArray = text.toByteArray := by
    apply ByteArray.ext
    simp [standard, String.toUTF8_eq_toByteArray]
  simp only [ofStandard?, whole, String.fromUTF8?, dif_pos text.isValidUTF8]
  rfl

/-- The modified UTF-8 encoding of a text. -/
def modified (text : String) : Bytes :=
  ModifiedUtf8.encode text.toList

/-- The text of which the bytes are the modified encoding. -/
def ofModified? (bytes : Bytes) : Option String :=
  (ModifiedUtf8.decode? bytes).map String.ofList

/-- The text of an entry: standard bytes are taken as they are, others are read as modified. -/
def decode? (bytes : Bytes) : Option String :=
  ofStandard? bytes <|> ofModified? bytes

end ClassAudit.Text.Payload
