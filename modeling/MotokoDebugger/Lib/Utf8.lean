import MotokoDebugger.Lib.Latin1

/-!
# Texts from bytes

`decode`: the text that bytes encode, if they are valid UTF-8.

* `decode_eq_some`: these are the encodings of texts.
-/

namespace Utf8

open Latin1

/-- The text of valid UTF-8. -/
def decode (bytes : List (BitVec 8)) : Option String :=
  String.fromUTF8? ⟨(bytes.map UInt8.ofBitVec).toArray⟩

/-- The bytes of a text. -/
def encode (text : String) : List (BitVec 8) := (utf8 text).map UInt8.toBitVec

/-- What is decoded is what encodes to the bytes. -/
lemma decode_eq_some {bytes : List (BitVec 8)} {text : String} :
    decode bytes = some text ↔ encode text = bytes := by
  have hbytes : ∀ bytes : List (BitVec 8), (bytes.map UInt8.ofBitVec).map UInt8.toBitVec = bytes := by
    intro bytes
    rw [List.map_map]
    exact List.map_id _
  have hback : ∀ bytes : List UInt8, (bytes.map UInt8.toBitVec).map UInt8.ofBitVec = bytes := by
    intro bytes
    rw [List.map_map]
    exact List.map_id _
  rw [decode, String.fromUTF8?]
  constructor
  · intro h
    split at h
    · cases h
      exact hbytes bytes
    · cases h
  · intro h
    subst h
    have harray : (⟨((encode text).map UInt8.ofBitVec).toArray⟩ : ByteArray) = text.toByteArray := by
      rw [encode, hback]
      rfl
    rw [harray, dif_pos text.isValidUTF8]
    rfl

/-- A text is decoded from its bytes. -/
lemma decode_encode (text : String) : decode (encode text) = some text :=
  decode_eq_some.mpr rfl

end Utf8
