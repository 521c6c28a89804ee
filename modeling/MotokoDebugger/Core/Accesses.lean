import MotokoDebugger.Core.Untyped
import Mathlib.Tactic.Common

/-!
# Accesses to the bytes of a memory

Loads and stores, with addresses as unbounded integers.

* `HasValue`: the bytes from an address on are those of a number, least significant byte first.
* `LoadOp.extended`: the result of a load, by the number that it reads.
* `Stored`: the bytes after a store.
* `LoadOp.eval_inside`, `StoreOp.eval_inside` and so on: the two operations are these, and trap where
  one of the bytes is not in the memory.
-/

namespace MotokoDebugger

open UntypedVal

/-! ## Little-endian numbers -/

lemma length_toLeBytes (n value : Nat) : (toLeBytes n value).length = n := by
  induction n generalizing value with
  | zero => rfl
  | succ n ih => rw [toLeBytes, List.length_cons, ih]

lemma fromLeBytes_toLeBytes (n value : Nat) :
    fromLeBytes (toLeBytes n value) = value % 256 ^ n := by
  induction n generalizing value with
  | zero => exact (Nat.mod_one value).symm
  | succ n ih =>
    have hbyte : (BitVec.ofNat 8 value).toNat = value % 256 := BitVec.toNat_ofNat value 8
    rw [toLeBytes, fromLeBytes, ih, hbyte, Nat.pow_succ', Nat.mod_mul]

lemma getElem?_toLeBytes {n i : Nat} (value : Nat) (h : i < n) :
    (toLeBytes n value)[i]? = some (BitVec.ofNat 8 (value / 256 ^ i)) := by
  induction n generalizing value i with
  | zero => omega
  | succ n ih =>
    cases i with
    | zero => simp [toLeBytes]
    | succ i =>
      rw [toLeBytes, List.getElem?_cons_succ, ih (value / 256) (by omega), Nat.div_div_eq_div_mul,
        Nat.pow_succ']

lemma fromLeBytes_lt (bytes : List Byte) : fromLeBytes bytes < 256 ^ bytes.length := by
  induction bytes with
  | nil => exact Nat.one_pos
  | cons byte bytes ih =>
    have hbyte : byte.toNat < 256 := byte.isLt
    rw [fromLeBytes, List.length_cons, Nat.pow_succ']
    omega

lemma toLeBytes_fromLeBytes (bytes : List Byte) :
    toLeBytes bytes.length (fromLeBytes bytes) = bytes := by
  induction bytes with
  | nil => rfl
  | cons byte bytes ih =>
    have hbyte : byte.toNat < 256 := byte.isLt
    have hdiv : (byte.toNat + 256 * fromLeBytes bytes) / 256 = fromLeBytes bytes := by omega
    rw [List.length_cons, fromLeBytes, toLeBytes, hdiv, ih]
    congr 1
    apply BitVec.eq_of_toNat_eq
    rw [BitVec.toNat_ofNat]
    omega

lemma toLeBytes_mod (n value : Nat) : toLeBytes n (value % 256 ^ n) = toLeBytes n value := by
  have hbytes := toLeBytes_fromLeBytes (toLeBytes n value)
  rwa [length_toLeBytes, fromLeBytes_toLeBytes] at hbytes

/-- The `n` bytes of `memory` from `address` on are those of `value`, least significant byte first. -/
structure HasValue (memory : List Byte) (address n value : Nat) : Prop where
  byte : ∀ i < n, memory[address + i]? = some (BitVec.ofNat 8 (value / 256 ^ i))
  lt : value < 256 ^ n

section HasValue

variable {memory : List Byte} {address n value value' : Nat}

lemma hasValue_iff (h : value < 256 ^ n) :
    HasValue memory address n value ↔ (memory.drop address).take n = toLeBytes n value := by
  constructor
  · intro hvalue
    apply List.ext_getElem?
    intro i
    by_cases hi : i < n
    · rw [List.getElem?_take_of_lt hi, List.getElem?_drop, hvalue.byte i hi,
        getElem?_toLeBytes value hi]
    · rw [List.getElem?_eq_none (by rw [List.length_take]; omega),
        List.getElem?_eq_none (by rw [length_toLeBytes]; omega)]
  · intro hbytes
    refine ⟨fun i hi => ?_, h⟩
    rw [← List.getElem?_drop, ← List.getElem?_take_of_lt hi, hbytes, getElem?_toLeBytes value hi]

/-- The bytes have at most one value. -/
lemma HasValue.unique (h : HasValue memory address n value)
    (h' : HasValue memory address n value') : value = value' := by
  have hbytes := ((hasValue_iff h.lt).1 h).symm.trans ((hasValue_iff h'.lt).1 h')
  have hvalues := congrArg fromLeBytes hbytes
  rwa [fromLeBytes_toLeBytes, fromLeBytes_toLeBytes, Nat.mod_eq_of_lt h.lt,
    Nat.mod_eq_of_lt h'.lt] at hvalues

lemma hasValue_fromLeBytes (h : address + n ≤ memory.length) :
    HasValue memory address n (fromLeBytes ((memory.drop address).take n)) := by
  have hlength : ((memory.drop address).take n).length = n := by
    rw [List.length_take, List.length_drop]
    omega
  have hlt := fromLeBytes_lt ((memory.drop address).take n)
  have hbytes := toLeBytes_fromLeBytes ((memory.drop address).take n)
  rw [hlength] at hlt hbytes
  exact (hasValue_iff hlt).2 hbytes.symm

end HasValue

/-! ## Loads -/

namespace LoadOp

/-- Does the operator read a signed number? -/
def isSigned : LoadOp → Bool
  | .i32Load8S | .i32Load16S | .i64Load8S | .i64Load16S | .i64Load32S => true
  | _ => false

/-- The bits of the result type. -/
def resultBits : LoadOp → Nat
  | .i32Load | .f32Load | .i32Load8S | .i32Load8U | .i32Load16S | .i32Load16U => 32
  | _ => 64

/-- The cell with the number that the bytes stand for, in two's complement for a signed operator. -/
def extended (op : LoadOp) (value : Nat) : UntypedVal :=
  let number : Int := if op.isSigned then (value : Int).bmod (256 ^ op.width) else value
  (BitVec.ofInt op.resultBits number).setWidth 64

variable (op : LoadOp)

lemma width_pos : 0 < op.width := by cases op <;> decide

lemma signExtend_ofNat (n w value : Nat) : (BitVec.ofNat (8 * n) value).signExtend w =
    BitVec.ofInt w ((value : Int).bmod (256 ^ n)) := by
  have hpow : 2 ^ (8 * n) = 256 ^ n := Nat.pow_mul 2 8 n
  rw [BitVec.signExtend, BitVec.toInt_ofNat', hpow]

lemma zeroExtend_ofInt {n value : Nat} (h : value < 2 ^ n) :
    BitVec.ofNat 64 value = (BitVec.ofInt n (value : Int)).setWidth 64 := by
  rw [BitVec.ofInt_natCast]
  apply BitVec.eq_of_toNat_eq
  rw [BitVec.toNat_setWidth, BitVec.toNat_ofNat, BitVec.toNat_ofNat, Nat.mod_eq_of_lt h]

lemma extend_eq {value : Nat} (h : value < 256 ^ op.width) : op.extend value = op.extended value := by
  cases op <;> simp only [extend, extended, isSigned, resultBits, width, if_true, if_false,
    Bool.false_eq_true] at h ⊢
  case i32Load8S => exact congrArg ofI32 (signExtend_ofNat 1 32 value)
  case i32Load16S => exact congrArg ofI32 (signExtend_ofNat 2 32 value)
  case i64Load8S => rw [BitVec.setWidth_eq, ← signExtend_ofNat 1 64 value]
  case i64Load16S => rw [BitVec.setWidth_eq, ← signExtend_ofNat 2 64 value]
  case i64Load32S => rw [BitVec.setWidth_eq, ← signExtend_ofNat 4 64 value]
  case i32Load | f32Load | i32Load8U | i32Load16U =>
    exact zeroExtend_ofInt (Nat.lt_of_lt_of_le h (by decide))
  case i64Load | f64Load | i64Load8U | i64Load16U | i64Load32U =>
    exact zeroExtend_ofInt (Nat.lt_of_lt_of_le h (by decide))

/-- The low bits of the result are the number that was read. -/
lemma extended_mod {value : Nat} (h : value < 256 ^ op.width) :
    (op.extended value).toNat % 256 ^ op.width = value := by
  have hbits : op.resultBits ≤ 64 ∧ 256 ^ op.width ∣ 2 ^ op.resultBits := by cases op <;> decide
  have hpos : 0 < 2 ^ op.resultBits := Nat.two_pow_pos _
  unfold extended
  generalize hnumber : (if op.isSigned then (value : Int).bmod (256 ^ op.width) else value) = number
  have hmod : number % ((256 ^ op.width : Nat) : Int) = value := by
    rw [← hnumber]
    split
    · rw [Int.bmod_emod, ← Int.natCast_emod, Nat.mod_eq_of_lt h]
    · rw [← Int.natCast_emod, Nat.mod_eq_of_lt h]
  have hlt : (BitVec.ofInt op.resultBits number).toNat < 2 ^ 64 :=
    Nat.lt_of_lt_of_le (BitVec.isLt _) (Nat.pow_le_pow_right (by decide) hbits.1)
  have hdvd : ((256 ^ op.width : Nat) : Int) ∣ ((2 ^ op.resultBits : Nat) : Int) :=
    Int.natCast_dvd_natCast.2 hbits.2
  apply Int.natCast_inj.1
  rw [BitVec.toNat_setWidth, Nat.mod_eq_of_lt hlt, Int.natCast_emod, BitVec.toNat_ofInt,
    Int.toNat_of_nonneg (Int.emod_nonneg _ (by omega)), Int.emod_emod_of_dvd _ hdvd,
    hmod]

variable {op} {memory : List Byte} {address : UntypedVal} {offset : BitVec 32}

lemma eval_inside (hinside : address.toI32.toNat + offset.toNat + op.width ≤ memory.length)
    (hlen : memory.length ≤ 2 ^ 32) :
    ∃ value, HasValue memory (address.toI32.toNat + offset.toNat) op.width value ∧
      op.eval memory address offset = .ok (op.extended value) := by
  have hpos := op.width_pos
  have hvalue := hasValue_fromLeBytes hinside
  refine ⟨_, hvalue, ?_⟩
  rw [LoadOp.eval, effectiveAddress, if_pos (by omega), ← op.extend_eq hvalue.lt]
  show (loadInto memory _ op.width >>= fun buffer => pure (op.extend (fromLeBytes buffer))) = _
  rw [loadInto, if_pos hinside]
  rfl

lemma eval_outside (houtside : ¬ address.toI32.toNat + offset.toNat + op.width ≤ memory.length) :
    op.eval memory address offset = .error .memoryOutOfBounds := by
  rw [LoadOp.eval, effectiveAddress]
  split
  case isTrue =>
    show (loadInto memory _ op.width >>= fun buffer => pure (op.extend (fromLeBytes buffer))) = _
    rw [loadInto, if_neg houtside]
    rfl
  case isFalse => rfl

end LoadOp

/-! ## Stores -/

/-- `after` has the low `n` bytes of `value` from `address` on and is `before` elsewhere. -/
structure Stored (before after : List Byte) (address n value : Nat) : Prop where
  written : HasValue after address n (value % 256 ^ n)
  rest : ∀ i, i < address ∨ address + n ≤ i → after[i]? = before[i]?

lemma stored_overwrite {before : List Byte} {address n : Nat} (value : Nat)
    (h : address + n ≤ before.length) :
    Stored before (before.take address ++ toLeBytes n value ++ before.drop (address + n)) address n
      value := by
  have hbytes := length_toLeBytes n value
  have htake : (before.take address).length = address := by
    rw [List.length_take]
    omega
  refine ⟨(hasValue_iff (Nat.mod_lt _ (Nat.pow_pos (by decide)))).2 ?_, fun i hi => ?_⟩
  · rw [List.append_assoc, List.drop_left' htake, List.take_left' hbytes, toLeBytes_mod]
  · obtain hi | hi := hi
    · rw [List.append_assoc, List.getElem?_append_left (by omega), List.getElem?_take_of_lt hi]
    · rw [List.getElem?_append_right (by rw [List.length_append]; omega), List.getElem?_drop]
      congr 1
      rw [List.length_append]
      omega

lemma Stored.length_eq {before after : List Byte} {address n value : Nat}
    (h : Stored before after address n value) (hinside : address + n ≤ before.length) :
    after.length = before.length := by
  apply Nat.le_antisymm
  · have hend := h.rest before.length (.inr hinside)
    rw [List.getElem?_eq_none (Nat.le_refl before.length)] at hend
    exact List.getElem?_eq_none_iff.1 hend
  · have hend : after[after.length]? = none := List.getElem?_eq_none (Nat.le_refl _)
    by_cases houtside : after.length < address ∨ address + n ≤ after.length
    · rw [h.rest _ houtside] at hend
      exact List.getElem?_eq_none_iff.1 hend
    · have hbyte := h.written.byte (after.length - address) (by omega)
      rw [show address + (after.length - address) = after.length by omega, hend] at hbyte
      simp at hbyte

namespace StoreOp

variable (op : StoreOp)

lemma width_pos : 0 < op.width := by cases op <;> decide

variable {op} {memory : List Byte} {address value : UntypedVal} {offset : BitVec 32}

lemma eval_inside (hinside : address.toI32.toNat + offset.toNat + op.width ≤ memory.length)
    (hlen : memory.length ≤ 2 ^ 32) :
    ∃ after, Stored memory after (address.toI32.toNat + offset.toNat) op.width value.toNat ∧
      op.eval memory address offset value = .ok after := by
  have hpos := op.width_pos
  refine ⟨_, stored_overwrite value.toNat hinside, ?_⟩
  rw [StoreOp.eval, effectiveAddress, if_pos (by omega)]
  show storeFrom memory _ (toLeBytes op.width value.toNat) = _
  rw [storeFrom, length_toLeBytes, if_pos hinside]

lemma eval_outside (houtside : ¬ address.toI32.toNat + offset.toNat + op.width ≤ memory.length) :
    op.eval memory address offset value = .error .memoryOutOfBounds := by
  rw [StoreOp.eval, effectiveAddress]
  split
  case isTrue =>
    show storeFrom memory _ (toLeBytes op.width value.toNat) = _
    rw [storeFrom, length_toLeBytes, if_neg houtside]
  case isFalse => rfl

end StoreOp

end MotokoDebugger
