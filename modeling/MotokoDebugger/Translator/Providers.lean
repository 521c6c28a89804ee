import MotokoDebugger.Executor.Local
import MotokoDebugger.Lib.Int16

/-!
# Providers and function-local constants

The operands of the translator (`translator/provider.rs`, `translator/stack/`).

* `Provider`: a register or a constant; `TaggedProvider` says where a register belongs.
* `FuncLocalConsts`: the pool of the constants that take a negative register.
-/

namespace MotokoDebugger

/-- `Reg::is_const`. -/
def Reg.isConst (reg : Reg) : Bool := reg < 0

/-- `Reg::prev`, which wraps. -/
def Reg.prev (reg : Reg) : Reg := reg - 1

namespace Translator

open Index16

/-- The errors of `TranslationError` that the modelled parts of the translator return. -/
inductive TranslationError where
  | branchOffsetOutOfBounds
  | blockFuelOutOfBounds
  | allocatedTooManyRegisters
  | registerOutOfBounds
  | tooManyFuncLocalConstValues
deriving Repr, DecidableEq

/-- How a part of the translation fails: it returns an error or panics. -/
inductive Failure where
  | error (error : TranslationError)
  | panic
deriving Repr, DecidableEq

/-- `TypedVal`. The upper half of a 32-bit value is zero, as every conversion to `UntypedVal`
leaves it. -/
structure TypedVal where
  ty : ValType
  value : UntypedVal
  upper : ty = .i32 ∨ ty = .f32 → value = .ofI32 value.toI32
deriving Repr, DecidableEq

/-- `Provider`. -/
inductive Provider (T : Type) where
  | register (reg : Reg)
  | const (value : T)
deriving Repr, DecidableEq

/-- `TypedProvider`. -/
abbrev TypedProvider := Provider TypedVal

/-- `TaggedProvider`. -/
inductive TaggedProvider where
  | constLocal (reg : Reg)
  | local (reg : Reg)
  | dynamic (reg : Reg)
  | preserved (reg : Reg)
  | constValue (value : TypedVal)
deriving Repr, DecidableEq

/-! ## Function-local constants -/

/-- `FuncLocalConsts`. The constant at position `i` has the register `-1 - i`. -/
structure FuncLocalConsts where
  const2idx : List (UntypedVal × Reg)
  idx2const : List UntypedVal
  nextIdx : Int16
  next_eq : nextIdx.toInt = -1 - idx2const.length
  entries : ∀ entry ∈ const2idx, ∃ i : Nat, entry.2.toInt = -1 - i ∧ idx2const[i]? = some entry.1
deriving Repr, DecidableEq

namespace FuncLocalConsts

/-- `FuncLocalConsts::first_index`. -/
def firstIndex : Int16 := -1

/-- `FuncLocalConsts::last_index`: `i16::MIN`. -/
def lastIndex : Int16 := -32768

/-- `FuncLocalConsts::reset`. -/
def reset : FuncLocalConsts := ⟨[], [], firstIndex, rfl, by simp⟩

/-- The vacant case of `FuncLocalConsts::alloc`. -/
def insert (consts : FuncLocalConsts) (value : UntypedVal) (h : consts.nextIdx ≠ lastIndex) :
    FuncLocalConsts where
  const2idx := (value, consts.nextIdx) :: consts.const2idx
  idx2const := consts.idx2const ++ [value]
  nextIdx := consts.nextIdx - 1
  next_eq := by
    have hone : (1 : Int16).toInt = 1 := rfl
    have hlast : lastIndex.toInt = -32768 := rfl
    have hne := mt Int16.toInt_inj.1 h
    have hmem := toInt_mem consts.nextIdx
    have hnext := consts.next_eq
    rw [toInt_sub_of_mem (by omega) (by omega), List.length_append, List.length_singleton]
    omega
  entries := by
    intro entry hentry
    obtain rfl | hentry := List.mem_cons.1 hentry
    · exact ⟨consts.idx2const.length, consts.next_eq, by simp⟩
    · obtain ⟨i, hi, hvalue⟩ := consts.entries entry hentry
      have hlt := (List.getElem?_eq_some_iff.1 hvalue).1
      exact ⟨i, hi, by rw [List.getElem?_append_left hlt, hvalue]⟩

/-- `FuncLocalConsts::alloc`. A constant that is there keeps its register. -/
def alloc (consts : FuncLocalConsts) (value : UntypedVal) :
    Except Failure (Reg × FuncLocalConsts) :=
  if h : consts.nextIdx = lastIndex then .error (.error .tooManyFuncLocalConstValues)
  else
    match consts.const2idx.lookup value with
    | some reg => .ok (reg, consts)
    | none => .ok (consts.nextIdx, consts.insert value h)

/-- `FuncLocalConsts::get`. -/
def get (consts : FuncLocalConsts) (reg : Reg) : Option UntypedVal :=
  if reg.isConst then consts.idx2const[(reg + 1).toInt.natAbs]? else none

/-- `ValueStack::provider2reg`. -/
def provider2reg (consts : FuncLocalConsts) : TypedProvider → Except Failure (Reg × FuncLocalConsts)
  | .register reg => .ok (reg, consts)
  | .const value => consts.alloc value.value

/-- Later constants leave the registers of earlier ones alone. -/
def Extends (consts consts' : FuncLocalConsts) : Prop :=
  ∀ reg value, consts.get reg = some value → consts'.get reg = some value

variable {consts consts' consts'' : FuncLocalConsts}

lemma Extends.refl (consts : FuncLocalConsts) : consts.Extends consts := fun _ _ h => h

lemma Extends.trans (h : consts.Extends consts') (h' : consts'.Extends consts'') :
    consts.Extends consts'' :=
  fun reg value hget => h' reg value (h reg value hget)

lemma get_of_toInt {reg : Reg} {i : Nat} (h : reg.toInt = -1 - i) :
    consts.get reg = consts.idx2const[i]? := by
  have hone : (1 : Int16).toInt = 1 := rfl
  have hzero : (0 : Int16).toInt = 0 := rfl
  have hmem := toInt_mem reg
  have hconst : reg.isConst = true := decide_eq_true (Int16.lt_iff_toInt_lt.2 (by omega))
  have hindex : (reg + 1).toInt.natAbs = i := by
    rw [toInt_add_of_mem (by omega) (by omega)]
    omega
  rw [get, if_pos hconst, hindex]

/-- Only the registers of constants have values in the pool. -/
lemma toInt_of_get {reg : Reg} {value : UntypedVal} (h : consts.get reg = some value) :
    ∃ i : Nat, reg.toInt = -1 - i ∧ consts.idx2const[i]? = some value := by
  have hone : (1 : Int16).toInt = 1 := rfl
  have hzero : (0 : Int16).toInt = 0 := rfl
  have hmem := toInt_mem reg
  unfold get at h
  split at h
  case isFalse => simp at h
  case isTrue hconst =>
    have hneg := Int16.lt_iff_toInt_lt.1 (of_decide_eq_true hconst)
    have hsucc : (reg + 1).toInt = reg.toInt + 1 := by
      rw [toInt_add_of_mem (by omega) (by omega), hone]
    exact ⟨(reg + 1).toInt.natAbs, by omega, h⟩

lemma extends_insert (value : UntypedVal) (h : consts.nextIdx ≠ lastIndex) :
    consts.Extends (consts.insert value h) := by
  intro reg value' hget
  unfold get at hget ⊢
  split at hget
  case isFalse => simp at hget
  case isTrue hconst =>
    have hlt := (List.getElem?_eq_some_iff.1 hget).1
    rw [if_pos hconst]
    show (consts.idx2const ++ [value])[_]? = _
    rw [List.getElem?_append_left hlt, hget]

/-- The register of an allocated constant. -/
lemma alloc_ok {value : UntypedVal} {reg : Reg} (h : consts.alloc value = .ok (reg, consts')) :
    consts.Extends consts' ∧ consts'.get reg = some value ∧ reg.toInt < 0 := by
  unfold alloc at h
  split at h
  case isTrue => simp at h
  case isFalse hlast =>
    split at h
    case h_1 reg' hlookup =>
      obtain ⟨rfl, rfl⟩ := Prod.mk.inj (Except.ok.inj h)
      obtain ⟨before, after, hsplit, _⟩ := List.lookup_eq_some_iff.1 hlookup
      have hentry : (value, reg') ∈ consts.const2idx := by
        rw [hsplit]
        simp
      obtain ⟨i, hi, hvalue⟩ := consts.entries (value, reg') hentry
      dsimp only at hi hvalue
      exact ⟨Extends.refl consts, by rw [get_of_toInt hi, hvalue], by omega⟩
    case h_2 =>
      obtain ⟨rfl, rfl⟩ := Prod.mk.inj (Except.ok.inj h)
      refine ⟨extends_insert value hlast, ?_, ?_⟩
      · rw [get_of_toInt consts.next_eq]
        show (consts.idx2const ++ [value])[_]? = _
        simp
      · have hnext := consts.next_eq
        omega

/-- The register holds the value of the provider. -/
def Holds (consts : FuncLocalConsts) (reg : Reg) : TypedProvider → Prop
  | .register reg' => reg = reg'
  | .const value => consts.get reg = some value.value ∧ reg.toInt < 0

lemma Holds.extends {reg : Reg} {value : TypedProvider} (h : consts.Holds reg value)
    (hext : consts.Extends consts') : consts'.Holds reg value := by
  cases value with
  | register reg' => exact h
  | const value => exact ⟨hext _ _ h.1, h.2⟩

lemma provider2reg_ok {value : TypedProvider} {reg : Reg}
    (h : consts.provider2reg value = .ok (reg, consts')) :
    consts.Extends consts' ∧ consts'.Holds reg value := by
  cases value with
  | register reg' =>
    obtain ⟨rfl, rfl⟩ := Prod.mk.inj (Except.ok.inj h)
    exact ⟨Extends.refl consts, rfl⟩
  | const value => exact alloc_ok h

/-! ### A pool with one constant -/

lemma singleton_next (value : UntypedVal) :
    (-2 : Int16).toInt = -1 - ([value] : List UntypedVal).length := rfl

lemma singleton_entries (value : UntypedVal) :
    ∀ entry ∈ ([(value, -1)] : List (UntypedVal × Reg)),
      ∃ i : Nat, entry.2.toInt = -1 - i ∧ ([value] : List UntypedVal)[i]? = some entry.1 := by
  intro entry hentry
  rw [List.mem_singleton.1 hentry]
  exact ⟨0, rfl, rfl⟩

end FuncLocalConsts

/-- The registers of the constants hold them. -/
def ConstsIn {T : Type} (consts : FuncLocalConsts) (l : Local T) : Prop :=
  ∀ reg value, consts.get reg = some value → l.read reg = some value

lemma constsIn_singleton {T : Type} {consts : FuncLocalConsts} {l : Local T} {value : UntypedVal}
    (hconsts : consts.idx2const = [value]) (h : l.read (-1) = some value) : ConstsIn consts l := by
  intro reg value' hget
  obtain ⟨i, hi, hvalue⟩ := FuncLocalConsts.toInt_of_get hget
  rw [hconsts] at hvalue
  -- the only position is the first one, and its register is -1
  obtain ⟨hlt, rfl⟩ := List.getElem?_eq_some_iff.1 hvalue
  obtain rfl : i = 0 := Nat.lt_one_iff.1 hlt
  obtain rfl : reg = -1 := Int16.toInt_inj.1 hi
  exact h

end Translator

end MotokoDebugger
