import PrecompileHost.Word

/-!
Text as UTF-8 bytes and back, and single bytes as the characters of the same number.
-/

namespace PrecompileHost.Text

def utf8 (text : List Char) : Bytes :=
  text.flatMap String.utf8EncodeChar

/-- The text that bytes encode, if they are UTF-8. -/
def ofUTF8? (bytes : Bytes) : Option (List Char) :=
  (String.fromUTF8? (ByteArray.mk bytes.toArray)).map String.toList

/-- Decoding is the inverse of encoding, and nothing else is decoded. -/
theorem ofUTF8?_eq_some_iff {bytes : Bytes} {text : List Char} :
    ofUTF8? bytes = some text ↔ bytes = utf8 text := by
  have hbytes : ByteArray.mk bytes.toArray = bytes.toByteArray :=
    ByteArray.ext List.data_toByteArray.symm
  rw [ofUTF8?, hbytes, Option.map_eq_some_iff]
  constructor
  · rintro ⟨s, hs, rfl⟩
    have hencoded : s.toList.utf8Encode = bytes.toByteArray := by
      rw [String.utf8Encode_toList]
      unfold String.fromUTF8? at hs
      split at hs
      · cases hs
        rfl
      · cases hs
    exact (List.toByteArray_inj.mp hencoded).symm
  · rintro rfl
    have hvalid : (utf8 text).toByteArray.IsValidUTF8 := .intro text rfl
    refine ⟨String.ofList text, ?_, String.toList_ofList⟩
    rw [String.fromUTF8?, dif_pos hvalid]
    exact congrArg some (String.toByteArray_inj.mp rfl)

/-- The character whose number is the byte. -/
def latin1 (b : UInt8) : Char :=
  Char.ofNat b.toNat

end PrecompileHost.Text
