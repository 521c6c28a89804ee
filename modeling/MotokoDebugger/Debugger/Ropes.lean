import MotokoDebugger.Core.Accesses
import MotokoDebugger.Debugger.HeapTotal
import MotokoDebugger.Lib.Latin1

/-!
# Texts on the heap

* `Rope`, `LaidOut`: a tree of blobs and concatenations, and where its bytes are in the memory.
* `display_rope`: the display of a rope has one character for each byte.
* `rope_shown_iff`: so it decodes the bytes as UTF-8 if and only if they are ASCII.
-/

namespace MotokoDebugger

open StateExcept Executor

namespace Debugger

variable {T : Type}

/-- The bytes are in the memory from `start` on. -/
def BytesAt (memory : List Byte) (start : Nat) (bytes : List Byte) : Prop :=
  (memory.drop start).take bytes.length = bytes

instance (memory : List Byte) (start : Nat) (bytes : List Byte) :
    Decidable (BytesAt memory start bytes) :=
  inferInstanceAs (Decidable (_ = _))

namespace BytesAt

variable {memory bytes bytes' : List Byte} {start : Nat}

lemma le_length (h : BytesAt memory start bytes) (hne : bytes ≠ []) :
    start + bytes.length ≤ memory.length := by
  have hlen := congrArg List.length h
  rw [List.length_take, List.length_drop] at hlen
  have hpos := List.length_pos_iff.mpr hne
  omega

lemma of_append (h : BytesAt memory start (bytes ++ bytes')) :
    BytesAt memory start bytes ∧ BytesAt memory (start + bytes.length) bytes' := by
  unfold BytesAt at h ⊢
  have hlen := congrArg List.length h
  rw [List.length_take, List.length_drop, List.length_append] at hlen
  rw [List.length_append, List.take_add, List.drop_drop] at h
  apply List.append_inj h
  rw [List.length_take, List.length_drop]
  omega

end BytesAt

/-- The four bytes of a word. -/
abbrev word (value : Nat) : List Byte := toLeBytes 4 value

section Words

variable {memory : List Byte} {address : UntypedVal} {offset : BitVec 32}

lemma inBounds_of_bytesAt {op : LoadOp} {bytes : List Byte} (hsize : memory.length ≤ 2 ^ 32)
    (hwidth : op.width = bytes.length) (hne : bytes ≠ [])
    (h : BytesAt memory (address.toI32.toNat + offset.toNat) bytes) :
    InBounds op memory address offset := by
  have hle := h.le_length hne
  have hpos := List.length_pos_iff.mpr hne
  exact ⟨by omega, by omega⟩

/-- A load of a word that is in the memory. -/
lemma valueAt_word {value : Nat} (hvalue : value < 2 ^ 32)
    (h : BytesAt memory (address.toI32.toNat + offset.toNat) (word value)) :
    valueAt .i32Load memory address offset = BitVec.ofNat 64 value := by
  have hbytes : (memory.drop (address.toI32.toNat + offset.toNat)).take 4 = word value := h
  show BitVec.ofNat 64 (fromLeBytes (List.take 4 _)) = _
  rw [hbytes, fromLeBytes_toLeBytes, Nat.mod_eq_of_lt (by omega)]

lemma inBounds_word {value : Nat} (hsize : memory.length ≤ 2 ^ 32)
    (h : BytesAt memory (address.toI32.toNat + offset.toNat) (word value)) :
    InBounds .i32Load memory address offset := by
  have hlen := length_toLeBytes 4 value
  exact @inBounds_of_bytesAt memory address offset .i32Load (word value) hsize hlen.symm
    (List.ne_nil_of_length_eq_add_one hlen) h

end Words

/-! ## Ropes -/

/-- A text: the bytes of a blob, or two texts. -/
inductive Rope where
  | leaf (bytes : List Byte)
  | concat (left right : Rope)

namespace Rope

/-- The bytes of the leaves, from left to right. -/
def bytes : Rope → List Byte
  | leaf bytes => bytes
  | concat left right => left.bytes ++ right.bytes

/-- The number of concatenations above the deepest leaf. -/
def height : Rope → Nat
  | leaf _ => 0
  | concat left right => max left.height right.height + 1

end Rope

/-- The rope is in the memory, with its root at the address. An object starts behind its address,
with its tag; the word after it is the number of bytes of a blob, or a hash. -/
inductive LaidOut (memory : List Byte) : UntypedVal → Rope → Prop where
  | leaf {address : UntypedVal} {bytes : List Byte} :
      BytesAt memory (address.toI32.toNat + 1) (word 27 ++ word bytes.length ++ bytes) →
      LaidOut memory address (.leaf bytes)
  | concat {address : UntypedVal} {hash left right : BitVec 32} {leftRope rightRope : Rope} :
      BytesAt memory (address.toI32.toNat + 1)
        (word 37 ++ word hash.toNat ++ word left.toNat ++ word right.toNat) →
      LaidOut memory (.ofI32 left) leftRope → LaidOut memory (.ofI32 right) rightRope →
      LaidOut memory address (.concat leftRope rightRope)

/-- The text with one character for each byte. -/
def byteText (bytes : List Byte) : String := Latin1.latin1 (bytes.map UInt8.ofBitVec)

/-- The text is what the bytes mean in UTF-8. -/
def Decodes (bytes : List Byte) (text : String) : Prop :=
  (Latin1.utf8 text).map UInt8.toBitVec = bytes

instance (bytes : List Byte) (text : String) : Decidable (Decodes bytes text) :=
  inferInstanceAs (Decidable (_ = _))

lemma byteText_cons (byte : Byte) (bytes : List Byte) :
    byteText (byte :: bytes) = String.singleton (Char.ofNat byte.toNat) ++ byteText bytes :=
  Latin1.latin1_cons _ _

lemma byteText_append (bytes bytes' : List Byte) :
    byteText (bytes ++ bytes') = byteText bytes ++ byteText bytes' := by
  rw [byteText, List.map_append, Latin1.latin1_append]
  rfl

/-- One character for each byte decodes ASCII, and nothing else. -/
lemma decodes_byteText_iff (bytes : List Byte) :
    Decodes bytes (byteText bytes) ↔ ∀ byte ∈ bytes, byte.toNat < 128 := by
  have hinverse : (bytes.map UInt8.ofBitVec).map UInt8.toBitVec = bytes := by
    rw [List.map_map]
    exact List.map_id bytes
  have hinjective : Function.Injective UInt8.toBitVec := fun _ _ => UInt8.toBitVec_inj.mp
  unfold Decodes
  conv_lhs => rhs; rw [← hinverse]
  rw [hinjective.list_map.eq_iff, byteText, Latin1.utf8_latin1_iff, List.forall_mem_map]
  rfl

/-! ## The display of a rope -/

section Ropes

variable {env : HeapEnv T} {memory : List Byte} {address : UntypedVal} {l : Local T}

/-- The loop over the bytes of a blob. -/
lemma blobChars_eq (hsize : memory.length ≤ 2 ^ 32) {bytes : List Byte} {i : Nat}
    (h : BytesAt memory (address.toI32.toNat + 9 + i) bytes) :
    blobChars memory address i bytes.length l = .ok (byteText bytes) l := by
  induction bytes generalizing i with
  | nil => rfl
  | cons byte bytes ih =>
    have hle := h.le_length (List.cons_ne_nil _ _)
    rw [List.length_cons] at hle
    obtain ⟨hfirst, hrest⟩ := @BytesAt.of_append memory [byte] bytes _ h
    have hoffset : (TAG_OFFSET + ARRAY_VAR_T_DATA_OFFSET + BitVec.ofNat 32 i).toNat = 9 + i := by
      show (9 + i % 2 ^ 32) % 2 ^ 32 = _
      omega
    have hat : BytesAt memory (address.toI32.toNat +
        (TAG_OFFSET + ARRAY_VAR_T_DATA_OFFSET + BitVec.ofNat 32 i).toNat) [byte] := by
      rwa [hoffset, ← Nat.add_assoc]
    have hbounds := @inBounds_of_bytesAt memory address _ .i32Load8U [byte] hsize rfl
      (List.cons_ne_nil _ _) hat
    have hvalue : (valueAt .i32Load8U memory address
        (TAG_OFFSET + ARRAY_VAR_T_DATA_OFFSET + BitVec.ofNat 32 i)).toNat % 256 = byte.toNat := by
      have hbytes : (memory.drop (address.toI32.toNat +
        (TAG_OFFSET + ARRAY_VAR_T_DATA_OFFSET + BitVec.ofNat 32 i).toNat)).take 1 = [byte] := hat
      show (BitVec.ofNat 64 (fromLeBytes (List.take 1 _))).toNat % 256 = _
      rw [hbytes, BitVec.toNat_ofNat]
      have hbyte : byte.toNat < 256 := byte.isLt
      show (byte.toNat + 256 * 0) % 2 ^ 64 % 256 = _
      omega
    rw [List.length_cons, blobChars, bind_ok (loadWith_of_inBounds hbounds l),
      bind_ok (ih (by rwa [Nat.add_assoc] at hrest)), hvalue, byteText_cons]
    rfl

/-- The tag and the second word of an object. -/
lemma header_eq (hsize : memory.length ≤ 2 ^ 32) {tag second : Nat} {bytes : List Byte}
    (htag : tag < 2 ^ 32) (hsecond : second < 2 ^ 32)
    (h : BytesAt memory (address.toI32.toNat + 1) (word tag ++ word second ++ bytes)) :
    tagAt memory address = (Tagged.fromU64 tag).toOption ∧
      (InBounds .i32Load memory address (TAG_OFFSET + DATA_OFFSET) ∧
        valueAt .i32Load memory address (TAG_OFFSET + DATA_OFFSET) = BitVec.ofNat 64 second) ∧
      BytesAt memory (address.toI32.toNat + 9) bytes := by
  obtain ⟨hheader, hbytes⟩ := BytesAt.of_append h
  obtain ⟨htagAt, hsecondAt⟩ := BytesAt.of_append hheader
  rw [List.length_append, length_toLeBytes, length_toLeBytes] at hbytes
  rw [length_toLeBytes] at hsecondAt
  refine ⟨?_, ⟨inBounds_word hsize hsecondAt, valueAt_word hsecond hsecondAt⟩, hbytes⟩
  have hvalue : (valueAt .i32Load memory address TAG_OFFSET).toNat = tag := by
    rw [valueAt_word htag htagAt, BitVec.toNat_ofNat, Nat.mod_eq_of_lt (by omega)]
  rw [tagAt, if_pos (inBounds_word hsize htagAt), hvalue]

/-- The display of a rope has one character for each byte. -/
theorem display_rope (hholds : Holds l memory) (hsize : memory.length ≤ 2 ^ 32) {rope : Rope}
    (h : LaidOut memory address rope) {depth : Nat} (hdepth : rope.height < depth)
    (valType : ValType) (funcs : BigintFuncs) :
    displayLocalInHeap env depth address valType funcs l = .ok (byteText rope.bytes) l := by
  obtain ⟨depth, rfl⟩ : ∃ n, depth = n + 1 := ⟨depth - 1, by omega⟩
  induction h generalizing depth valType funcs with
  | @leaf address bytes hbytes =>
    have hle := hbytes.le_length (by simp [toLeBytes])
    rw [List.length_append, List.length_append, length_toLeBytes, length_toLeBytes] at hle
    have hlen : bytes.length < 2 ^ 32 := by omega
    obtain ⟨htag, hsecond, hdata⟩ := header_eq hsize (by decide) hlen hbytes
    rw [display_of_tag hholds htag]
    show handleBlobText memory address l = _
    rw [handleBlobText, bind_ok (loadWith_of_inBounds hsecond.1 l), hsecond.2,
      BitVec.toNat_ofNat, Nat.mod_eq_of_lt (by omega)]
    exact blobChars_eq hsize hdata
  | @concat address hash left right leftRope rightRope hbytes _ _ ihLeft ihRight =>
    rw [List.append_assoc (word 37 ++ word hash.toNat)] at hbytes
    obtain ⟨htag, hsecond, hdata⟩ := header_eq hsize (by decide) hash.isLt hbytes
    obtain ⟨hleft, hright⟩ := BytesAt.of_append hdata
    rw [length_toLeBytes] at hright
    have hin : ConcatIn memory address :=
      ⟨hsecond.1, inBounds_word hsize hleft, inBounds_word hsize hright⟩
    have hfirst : concatFirst memory address = UntypedVal.ofI32 left :=
      (valueAt_word left.isLt hleft).trans (BitVec.ofNat_toNat 64 left)
    have hsecond : concatSecond memory address = UntypedVal.ofI32 right :=
      (valueAt_word right.isLt hright).trans (BitVec.ofNat_toNat 64 right)
    rw [display_of_tag hholds htag]
    show handleConcat _ memory address l = _
    rw [Rope.height] at hdepth
    obtain ⟨depth, rfl⟩ : ∃ n, depth = n + 1 := ⟨depth - 1, by omega⟩
    rw [handleConcat_of_in hin, hfirst, hsecond, bind_ok (ihLeft _ _ depth (by omega)),
      bind_ok (ihRight _ _ depth (by omega)), Rope.bytes, byteText_append]
    rfl

/-- The text shown for a rope, which does not depend on the shape of its tree, is what the bytes of
its leaves mean in UTF-8 if and only if they are ASCII. -/
theorem rope_shown_iff (hholds : Holds l memory) (hsize : memory.length ≤ 2 ^ 32) {rope : Rope}
    (h : LaidOut memory address rope) (valType : ValType) (funcs : BigintFuncs) :
    (∃ text, Decodes rope.bytes text ∧ ∀ depth, rope.height < depth →
        displayLocalInHeap env depth address valType funcs l = .ok text l) ↔
      ∀ byte ∈ rope.bytes, byte.toNat < 128 := by
  rw [← decodes_byteText_iff]
  constructor
  · rintro ⟨text, hdecodes, hshown⟩
    have hdisplay := hshown _ (Nat.lt_succ_self _)
    rw [display_rope hholds hsize h (Nat.lt_succ_self _)] at hdisplay
    cases hdisplay
    exact hdecodes
  · intro hdecodes
    exact ⟨_, hdecodes, fun depth hdepth => display_rope hholds hsize h hdepth valType funcs⟩

end Ropes

/-- The text `Hi` as a concatenation of two blobs. -/
def hiMemory : List Byte :=
  [0, 0] ++ word 37 ++ word 0 ++ word 17 ++ word 26 ++ (word 27 ++ word 1 ++ [72]) ++
    (word 27 ++ word 1 ++ [105])

theorem rope_shown_iff_hi :
    (∃ text, Decodes [72, 105] text ∧ ∀ depth, 1 < depth →
        displayLocalInHeap plainEnv depth 1 .i32 .none (memorySession hiMemory).machine.toLocal =
          .ok text (memorySession hiMemory).machine.toLocal) ↔
      ∀ byte ∈ ([72, 105] : List Byte), byte.toNat < 128 := by
  have hleaves : LaidOut hiMemory (UntypedVal.ofI32 17) (.leaf [72]) ∧
      LaidOut hiMemory (UntypedVal.ofI32 26) (.leaf [105]) :=
    ⟨.leaf (by decide), .leaf (by decide)⟩
  have hlaid : LaidOut hiMemory 1 (.concat (.leaf [72]) (.leaf [105])) :=
    @LaidOut.concat hiMemory 1 0 17 26 _ _ (by decide) hleaves.1 hleaves.2
  exact rope_shown_iff (holds_memorySession hiMemory) (by decide) hlaid .i32 .none

/-- The text `é`, as a blob at the address 1. -/
def accentMemory : List Byte := [0, 0] ++ word 27 ++ word 2 ++ [0xc3, 0xa9]

/-- It is shown as two characters. -/
theorem rope_shown_bytewise :
    LaidOut accentMemory 1 (.leaf [0xc3, 0xa9]) ∧ Decodes [0xc3, 0xa9] "é" ∧
      ¬ Decodes [0xc3, 0xa9] "Ã©" ∧
      ∀ depth, displayLocalInHeap plainEnv (depth + 1) 1 .i32 .none
          (memorySession accentMemory).machine.toLocal =
        .ok "Ã©" (memorySession accentMemory).machine.toLocal := by
  exact ⟨.leaf (by decide), by decide, by decide, fun _ => rfl⟩

end Debugger

end MotokoDebugger
