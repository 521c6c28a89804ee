import MotokoDebugger.Dwarf.Entries
import Mathlib.Algebra.BigOperators.Group.Finset.Basic
import Mathlib.Algebra.BigOperators.Fin
import Mathlib.Algebra.BigOperators.Ring.Finset
import Mathlib.Tactic.Ring
import Mathlib.Tactic.Linarith

/-!
# Values of variables

`debugger/src/dwarf/format.rs`: the text of an object of a base type or of a structure.

* `twosComplement`: the number that bytes stand for.
* `fromSignedBytesLe_eq_iff`: the bytes that `from_signed_bytes_le` reads right.
-/

namespace MotokoDebugger

namespace Dwarf

/-- The encoding that an attribute gives. -/
def AttributeValue.encodingValue : AttributeValue → Option DwAte
  | .encoding value => some value
  | _ => none

/-- `num_bigint::Sign`, of the numbers that are built here. -/
inductive Sign where
  | minus | plus
deriving Repr, DecidableEq

/-- `BigInt::from_bytes_le`. -/
def bigIntFromBytesLe (sign : Sign) (bytes : List Byte) : Int :=
  match sign with
  | .minus => -(fromLeBytes bytes : Int)
  | .plus => fromLeBytes bytes

/-- `from_signed_bytes_le`. -/
def fromSignedBytesLe (bytes : List Byte) : Except Failure Int :=
  match bytes.getLast? with
  | none => .error .panic
  | some last =>
    let isNegate := last >>> 7 == 1
    let result := bytes.map fun byte => byte ^^^ ~~~0
    let v := bigIntFromBytesLe (if isNegate then .minus else .plus) result
    .ok (if isNegate then v - 1 else v + 1)

/-- The names of the members of a structure, each from its own entry. -/
def memberNames (dwarf : Strings) : List EntriesTreeNode → Except Failure (List String)
  | [] => .ok []
  | child :: children =>
    match child.entry.tag with
    | .member => do
      let name ← child.entry.nameOr dwarf "<no member name>"
      let members ← memberNames dwarf children
      return name :: members
    | _ => memberNames dwarf children

/-- `&memory[0..len]`. -/
def sliceTo (len : Nat) (memory : List Byte) : Except Failure (List Byte) :=
  if len ≤ memory.length then .ok (memory.take len) else .error .panic

/-- `format_object`. -/
def formatObject (dwarf : Strings) (node : EntriesTreeNode) (memory : List Byte) :
    Except Failure String :=
  match node.entry.tag with
  | .baseType => do
    let name ← node.entry.nameOr dwarf "<no type name>"
    let byteSize ← withContext "Failed to get byte_size"
      ((← tryOk (node.entry.attrValue .byteSize)).bind (·.udataValue))
    let encoding ← withContext "Failed to get type encoding"
      ((← tryOk (node.entry.attrValue .encoding)).bind (·.encodingValue))
    let bytes ← sliceTo byteSize memory
    match encoding with
    | .signed =>
      let v ← fromSignedBytesLe bytes
      return name ++ "(" ++ toString v ++ ")"
    | .unsigned => return name ++ "(" ++ toString (fromLeBytes bytes) ++ ")"
    | .other _ => .error .panic
  | .classType | .structureType => do
    let typeName ← node.entry.nameOr dwarf "<no type name>"
    let members ← memberNames dwarf node.children
    tryOk node.childrenEnd
    return typeName ++ " \x7b\n" ++ ",\n".intercalate members ++ "\n\x7d"
  | _ => .error (.error "unsupported DIE type")

/-! ## Two's complement -/

/-- The number that bytes stand for in two's complement, least significant byte first. -/
def twosComplement (bytes : List Byte) : Int :=
  ∑ i : Fin bytes.length, ((bytes.get i).toNat : Int) * 256 ^ (i : Nat) -
    if ∃ last ∈ bytes.getLast?, 128 ≤ last.toNat then 256 ^ bytes.length else 0

/-- The value of the bytes as a sum. -/
lemma fromLeBytes_eq_sum (bytes : List Byte) :
    (fromLeBytes bytes : Int) =
      ∑ i : Fin bytes.length, ((bytes.get i).toNat : Int) * 256 ^ (i : Nat) := by
  induction bytes with
  | nil => rfl
  | cons byte bytes ih =>
    have hrest : ∑ i : Fin bytes.length, ((bytes.get i).toNat : Int) * 256 ^ (i.succ : Nat) =
        256 * fromLeBytes bytes := by
      rw [ih, Finset.mul_sum]
      apply Finset.sum_congr rfl
      intro i _
      rw [Fin.val_succ]
      ring
    have hsum : ∑ i : Fin (byte :: bytes).length,
        (((byte :: bytes).get i).toNat : Int) * 256 ^ (i : Nat) =
        (byte.toNat : Int) * 256 ^ 0 + ∑ i : Fin bytes.length, ((bytes.get i).toNat : Int) *
          256 ^ (i.succ : Nat) := Fin.sum_univ_succ _
    rw [hsum, hrest, fromLeBytes]
    push_cast
    ring

/-- Flipping every bit of the bytes subtracts their value from the greatest one. -/
lemma fromLeBytes_flipped (bytes : List Byte) :
    fromLeBytes (bytes.map fun byte => byte ^^^ ~~~0) + fromLeBytes bytes + 1 =
      256 ^ bytes.length := by
  induction bytes with
  | nil => rfl
  | cons byte bytes ih =>
    have hflipped : (byte ^^^ ~~~0#8).toNat + byte.toNat = 255 := by
      have hnot : byte ^^^ ~~~0#8 = ~~~byte := BitVec.xor_allOnes
      have hbyte : byte.toNat < 256 := byte.isLt
      rw [hnot, BitVec.toNat_not]
      omega
    rw [List.map_cons, fromLeBytes, fromLeBytes, List.length_cons, Nat.pow_succ', ← ih]
    show (byte ^^^ ~~~0#8).toNat + _ + _ + 1 = _
    omega

/-- Without the top bit the bytes stay below half of the power. -/
lemma two_mul_fromLeBytes_lt {bytes : List Byte} (hne : bytes ≠ [])
    (h : ¬∃ last ∈ bytes.getLast?, 128 ≤ last.toNat) :
    2 * fromLeBytes bytes < 256 ^ bytes.length := by
  induction bytes with
  | nil => exact absurd rfl hne
  | cons byte bytes ih =>
    have hbyte : byte.toNat < 256 := byte.isLt
    rw [fromLeBytes, List.length_cons, Nat.pow_succ']
    cases bytes with
    | nil =>
      have hclear : ¬128 ≤ byte.toNat := fun htop => h ⟨byte, rfl, htop⟩
      simp only [fromLeBytes, List.length_nil, pow_zero]
      omega
    | cons next bytes =>
      have hrest := ih (List.cons_ne_nil _ _) h
      rw [List.length_cons, Nat.pow_succ'] at hrest ⊢
      omega

lemma topBit_iff (byte : Byte) : byte >>> 7 == 1 ↔ 128 ≤ byte.toNat := by
  have hbyte : byte.toNat < 256 := byte.isLt
  rw [beq_iff_eq, ← BitVec.toNat_inj, BitVec.toNat_ushiftRight, Nat.shiftRight_eq_div_pow]
  show byte.toNat / 2 ^ 7 = 1 ↔ _
  omega

section FromSignedBytesLe

variable {bytes : List Byte}

/-- Bytes with the top bit set are read right. -/
lemma fromSignedBytesLe_negative (h : ∃ last ∈ bytes.getLast?, 128 ≤ last.toNat) :
    fromSignedBytesLe bytes = .ok (twosComplement bytes) := by
  obtain ⟨last, hlast, htop⟩ := h
  have hflipped := fromLeBytes_flipped bytes
  rw [twosComplement, ← fromLeBytes_eq_sum, if_pos ⟨last, hlast, htop⟩, fromSignedBytesLe,
    Option.mem_def.mp hlast]
  have hbit : (last >>> 7 == 1) = true := (topBit_iff last).mpr htop
  simp only [hbit, if_true, bigIntFromBytesLe]
  rw [Except.ok.injEq]
  zify at hflipped
  omega

/-- All others are read as what is left to the next power of 256. -/
lemma fromSignedBytesLe_nonnegative (hne : bytes ≠ [])
    (h : ¬∃ last ∈ bytes.getLast?, 128 ≤ last.toNat) :
    fromSignedBytesLe bytes = .ok (256 ^ bytes.length - fromLeBytes bytes) := by
  have hflipped := fromLeBytes_flipped bytes
  have hlast : bytes.getLast? = some (bytes.getLast hne) := List.getLast?_eq_getLast_of_ne_nil hne
  have hbit : (bytes.getLast hne >>> 7 == 1) = false := by
    rw [Bool.eq_false_iff, ne_eq, topBit_iff]
    exact fun htop => h ⟨_, hlast, htop⟩
  rw [fromSignedBytesLe, hlast]
  simp only [hbit, Bool.false_eq_true, if_false, bigIntFromBytesLe]
  rw [Except.ok.injEq]
  zify at hflipped
  omega

/-- The bytes that are read as what they stand for in two's complement: those with the top bit
set. -/
theorem fromSignedBytesLe_eq_iff (hne : bytes ≠ []) :
    fromSignedBytesLe bytes = .ok (twosComplement bytes) ↔
      ∃ last ∈ bytes.getLast?, 128 ≤ last.toNat := by
  constructor
  · intro hread
    by_contra hclear
    rw [fromSignedBytesLe_nonnegative hne hclear, Except.ok.injEq, twosComplement, if_neg hclear,
      ← fromLeBytes_eq_sum] at hread
    -- the value would be half of the power
    have hhalf := two_mul_fromLeBytes_lt hne hclear
    zify at hhalf
    omega
  · exact fromSignedBytesLe_negative

theorem fromSignedBytesLe_eq_iff_minusTwo :
    fromSignedBytesLe [0xfe, 0xff] = .ok (twosComplement [0xfe, 0xff]) ↔
      ∃ last ∈ [0xfe, 0xff].getLast?, 128 ≤ (last : Byte).toNat :=
  fromSignedBytesLe_eq_iff (by decide)

/-- The byte 5 is read as 251. -/
theorem fromSignedBytesLe_five :
    ¬∀ bytes : List Byte, bytes ≠ [] → fromSignedBytesLe bytes = .ok (twosComplement bytes) := by
  intro h
  exact absurd (h [5] (by decide)) (by decide)

end FromSignedBytesLe

/-! ## Objects of a signed base type -/

/-- The text of a signed object: what is read off its bytes. -/
theorem formatObject_signed {dwarf : Strings} {node : EntriesTreeNode} {memory : List Byte}
    {name : String} {byteSize : Nat}
    (htag : node.entry.tag = .baseType)
    (hname : node.entry.nameOr dwarf "<no type name>" = .ok name)
    (hsize : node.entry.attrValue .byteSize = .ok (some (.udata byteSize)))
    (hencoding : node.entry.attrValue .encoding = .ok (some (.encoding .signed)))
    (hpos : 0 < byteSize) (hin : byteSize ≤ memory.length) :
    formatObject dwarf node memory = .ok (name ++ "(" ++ toString (
      if ∃ last ∈ (memory.take byteSize).getLast?, 128 ≤ last.toNat
        then twosComplement (memory.take byteSize)
        else 256 ^ byteSize - twosComplement (memory.take byteSize)) ++ ")") := by
  have hread : fromSignedBytesLe (memory.take byteSize) = .ok (
      if ∃ last ∈ (memory.take byteSize).getLast?, 128 ≤ last.toNat
        then twosComplement (memory.take byteSize)
        else 256 ^ byteSize - twosComplement (memory.take byteSize)) := by
    have hlength : (memory.take byteSize).length = byteSize := List.length_take_of_le hin
    have hne : memory.take byteSize ≠ [] := by
      rw [← List.length_pos_iff, hlength]
      exact hpos
    split
    · rename_i htop
      exact fromSignedBytesLe_negative htop
    · rename_i hclear
      rw [fromSignedBytesLe_nonnegative hne hclear, twosComplement, if_neg hclear,
        ← fromLeBytes_eq_sum, hlength, sub_zero]
  have hslice : sliceTo byteSize memory = .ok (memory.take byteSize) := if_pos hin
  rw [formatObject, htag, hname, hsize, hencoding]
  show (sliceTo byteSize memory >>= fun bytes => fromSignedBytesLe bytes >>= _) = _
  rw [hslice]
  show (fromSignedBytesLe (memory.take byteSize) >>= _) = _
  rw [hread]
  rfl

end Dwarf

end MotokoDebugger
