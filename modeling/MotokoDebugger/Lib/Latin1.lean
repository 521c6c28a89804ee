import Mathlib.Tactic.Common

/-!
# Bytes as characters

`latin1`: the text whose characters are the bytes, one by one.

* `utf8_latin1_iff`: the bytes are the UTF-8 encoding of that text if and only if they are ASCII.
-/

namespace Latin1

/-- The character of a byte. -/
def char (byte : UInt8) : Char := Char.ofNat byte.toNat

/-- The text of the bytes, one character for each. -/
def latin1 (bytes : List UInt8) : String := String.ofList (bytes.map char)

@[simp] lemma latin1_nil : latin1 [] = "" := rfl

lemma latin1_cons (byte : UInt8) (bytes : List UInt8) :
    latin1 (byte :: bytes) = String.singleton (char byte) ++ latin1 bytes := by
  rw [latin1, List.map_cons, ← List.singleton_append, String.ofList_append]
  rfl

lemma latin1_append (bytes bytes' : List UInt8) :
    latin1 (bytes ++ bytes') = latin1 bytes ++ latin1 bytes' := by
  rw [latin1, List.map_append, String.ofList_append]
  rfl

/-- The UTF-8 encoding of a text. -/
def utf8 (text : String) : List UInt8 := text.toUTF8.data.toList

lemma utf8_latin1 (bytes : List UInt8) :
    utf8 (latin1 bytes) = (bytes.map char).flatMap String.utf8EncodeChar := by
  show (List.utf8Encode (bytes.map char)).data.toList = _
  rw [List.utf8Encode, List.toList_data_toByteArray]

lemma val_char (byte : UInt8) : (char byte).val.toNat = byte.toNat := by
  have hlt : byte.toNat < 256 := byte.toNat_lt
  have hvalid : byte.toNat.isValidChar := .inl (by omega)
  rw [char, Char.ofNat, dif_pos hvalid]
  rfl

/-- An ASCII byte is its own encoding. -/
lemma utf8EncodeChar_char {byte : UInt8} (h : byte.toNat < 128) :
    String.utf8EncodeChar (char byte) = [byte] := by
  rw [String.utf8EncodeChar]
  rw [val_char, if_pos (show byte.toNat ≤ 0x7f by omega), UInt8.ofNat_toNat]

/-- Every other byte takes two. -/
lemma length_utf8EncodeChar_char {byte : UInt8} (h : 128 ≤ byte.toNat) :
    (String.utf8EncodeChar (char byte)).length = 2 := by
  have hlt : byte.toNat < 256 := byte.toNat_lt
  have hlow : ¬ byte.toNat ≤ 0x7f := by omega
  have hhigh : byte.toNat ≤ 0x7ff := by omega
  rw [String.utf8EncodeChar]
  rw [val_char, if_neg hlow, if_pos hhigh]
  rfl

/-- No encoding is shorter than the text. -/
lemma length_le_utf8 (bytes : List UInt8) : bytes.length ≤ (utf8 (latin1 bytes)).length := by
  rw [utf8_latin1]
  induction bytes with
  | nil => exact Nat.zero_le _
  | cons byte bytes ih =>
    rw [List.map_cons, List.flatMap_cons, List.length_append, List.length_cons]
    have hpos : 0 < (String.utf8EncodeChar (char byte)).length := by
      rw [String.length_utf8EncodeChar]
      exact Char.utf8Size_pos _
    omega

/-- The bytes encode the text whose characters they are, if and only if they are ASCII. -/
theorem utf8_latin1_iff (bytes : List UInt8) :
    utf8 (latin1 bytes) = bytes ↔ ∀ byte ∈ bytes, byte.toNat < 128 := by
  induction bytes with
  | nil => exact iff_of_true rfl nofun
  | cons byte bytes ih =>
    have hsplit : utf8 (latin1 (byte :: bytes)) =
        String.utf8EncodeChar (char byte) ++ utf8 (latin1 bytes) := by
      rw [utf8_latin1, utf8_latin1, List.map_cons, List.flatMap_cons]
    rw [hsplit, List.forall_mem_cons]
    by_cases hascii : byte.toNat < 128
    · rw [utf8EncodeChar_char hascii, ← ih]
      simp [hascii]
    · -- two bytes for one
      refine iff_of_false (fun heq => ?_) fun h => hascii h.1
      have hlen := congrArg List.length heq
      rw [List.length_append, length_utf8EncodeChar_char (by omega), List.length_cons] at hlen
      have hle := length_le_utf8 bytes
      omega

end Latin1
