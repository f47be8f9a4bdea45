/-!
# Bytes and their text

Header values, payloads and bodies are lists of bytes. Text is read from bytes
as UTF-8 and written to them the same way; `textOf?` answers only for bytes
that are the encoding of some text, and `bytesOf` is what it accepts.
-/

namespace ServiceCodec

abbrev Bytes := List UInt8

/-- The UTF-8 encoding of `text`. -/
def bytesOf (text : String) : Bytes := text.toByteArray.data.toList

/-- The text that `bytes` encode in UTF-8, if they encode one. -/
def textOf? (bytes : Bytes) : Option String := String.fromUTF8? ⟨bytes.toArray⟩

theorem bytesOf_append (text text' : String) :
    bytesOf (text ++ text') = bytesOf text ++ bytesOf text' := by
  rw [bytesOf, bytesOf, bytesOf, String.toByteArray_append, ByteArray.data_append,
    Array.toList_append]

theorem textOf?_bytesOf (text : String) : textOf? (bytesOf text) = some text := by
  have h : (⟨(bytesOf text).toArray⟩ : ByteArray) = text.toByteArray := by
    simp [bytesOf]
  rw [textOf?, h, String.fromUTF8?, dif_pos text.isValidUTF8]
  rfl

end ServiceCodec
