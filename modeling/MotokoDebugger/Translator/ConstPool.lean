import MotokoDebugger.Lib.Tables
import MotokoDebugger.Translator.FrameLayout

/-!
# The pool of constants

`translator/stack/consts.rs`: values that are allocated in a pool, one after the other.

* `Inverse`: the map of a pool and its vector say the same.
* `pool`: the pool in front of a value of a sequence.
* `Keeps`: what the pool promises for the values of a sequence.
* `alloc_of_full`, `Inverse.alloc_of_get`, `Inverse.alloc_of_new`: what an allocation returns.
-/

namespace MotokoDebugger

namespace Translator

namespace FuncLocalConsts

open Index16

variable {consts : FuncLocalConsts} {value value' : UntypedVal} {reg : Reg}

lemma nextIdx_eq_lastIndex : consts.nextIdx = lastIndex ↔ consts.idx2const.length = 32767 := by
  have hlast : lastIndex.toInt = -32768 := rfl
  have hnext := consts.next_eq
  rw [← Int16.toInt_inj]
  omega

/-- There is a register for one more constant. -/
lemma lenConsts_lt_iff : consts.lenConsts < 32767 ↔ consts.nextIdx ≠ lastIndex := by
  have hlength := toNat_lenConsts consts
  have hnext := consts.next_eq
  have hmem := toInt_mem consts.nextIdx
  have hmax : (32767 : UInt16).toNat = 32767 := rfl
  rw [Ne, nextIdx_eq_lastIndex, UInt16.lt_iff_toNat_lt]
  omega

/-! ## The map and the vector -/

/-- The map finds the registers of the values. -/
def Inverse (consts : FuncLocalConsts) : Prop :=
  ∀ value reg, consts.const2idx.lookup value = some reg ↔ consts.get reg = some value

lemma get_reset (reg : Reg) : reset.get reg = none := by
  show (if reg.isConst then ([] : List UntypedVal)[(reg + 1).toInt.natAbs]? else none) = none
  rw [List.getElem?_nil, ite_self]

lemma inverse_reset : reset.Inverse := by
  intro value reg
  rw [get_reset]
  exact iff_of_false nofun nofun

lemma get_nextIdx (consts : FuncLocalConsts) : consts.get consts.nextIdx = none := by
  rw [get_of_toInt consts.next_eq]
  exact List.getElem?_eq_none (le_refl _)

lemma get_insert (h : consts.nextIdx ≠ lastIndex) :
    (consts.insert value h).get reg = some value' ↔
      consts.get reg = some value' ∨ reg = consts.nextIdx ∧ value = value' := by
  have hnext := consts.next_eq
  constructor
  · intro hget
    obtain ⟨i, hi, hvalue⟩ := toInt_of_get hget
    rw [get_of_toInt hi, ← Int16.toInt_inj]
    rcases Tables.getElem?_concat_eq_some.1 hvalue with hold | hnew
    · exact .inl hold
    · exact .inr ⟨by omega, hnew.2⟩
  · rintro (hget | ⟨rfl, rfl⟩)
    · exact extends_insert value h reg value' hget
    · rw [get_of_toInt hnext]
      exact Tables.getElem?_concat_eq_some.2 (.inr ⟨rfl, rfl⟩)

lemma Inverse.insert (hinverse : consts.Inverse) (h : consts.nextIdx ≠ lastIndex)
    (hnew : ∀ reg, consts.get reg ≠ some value) : (consts.insert value h).Inverse := by
  intro value' reg
  rw [get_insert h, ← hinverse value' reg]
  show ((value, consts.nextIdx) :: consts.const2idx).lookup value' = some reg ↔ _
  rw [List.lookup_cons]
  by_cases heq : value' = value
  · subst heq
    have hnone : consts.const2idx.lookup value' ≠ some reg :=
      fun hfound => hnew reg ((hinverse value' reg).1 hfound)
    simp [hnone, eq_comm]
  · have hbeq : (value' == value) = false := beq_eq_false_iff_ne.2 heq
    rw [hbeq]
    simp [Ne.symm heq]

lemma Inverse.get_inj {reg' : Reg} (hinverse : consts.Inverse) (h : consts.get reg = some value)
    (h' : consts.get reg' = some value) : reg = reg' := by
  have hlookup := (hinverse value reg).2 h
  rw [(hinverse value reg').2 h'] at hlookup
  exact (Option.some.inj hlookup).symm

/-! ## Allocations -/

lemma alloc_of_full (h : consts.nextIdx = lastIndex) (value : UntypedVal) :
    consts.alloc value = .error (.error .tooManyFuncLocalConstValues) := by
  rw [alloc, dif_pos h]

/-- A value that is in the pool has its register. -/
lemma Inverse.alloc_of_get (hinverse : consts.Inverse) (hroom : consts.nextIdx ≠ lastIndex)
    (h : consts.get reg = some value) : consts.alloc value = .ok (reg, consts) := by
  rw [alloc, dif_neg hroom, (hinverse value reg).2 h]

/-- Another value takes the next register. -/
lemma Inverse.alloc_of_new (hinverse : consts.Inverse) (hroom : consts.nextIdx ≠ lastIndex)
    (hnew : ∀ reg, consts.get reg ≠ some value) :
    consts.alloc value = .ok (consts.nextIdx, consts.insert value hroom) := by
  have hnone : consts.const2idx.lookup value = none := by
    cases hlookup : consts.const2idx.lookup value with
    | none => rfl
    | some reg => exact absurd ((hinverse value reg).1 hlookup) (hnew reg)
  rw [alloc, dif_neg hroom, hnone]

/-- An allocation that fails returns in front of its first write. -/
def allocated (consts : FuncLocalConsts) (value : UntypedVal) : FuncLocalConsts :=
  match consts.alloc value with
  | .ok result => result.2
  | .error _ => consts

lemma Inverse.allocated (h : consts.Inverse) (value : UntypedVal) :
    (consts.allocated value).Inverse := by
  by_cases hfull : consts.nextIdx = lastIndex
  · rw [FuncLocalConsts.allocated, alloc_of_full hfull]
    exact h
  · by_cases hnew : ∀ reg, consts.get reg ≠ some value
    · rw [FuncLocalConsts.allocated, h.alloc_of_new hfull hnew]
      exact h.insert hfull hnew
    · simp only [not_forall, not_not] at hnew
      obtain ⟨reg, hget⟩ := hnew
      rw [FuncLocalConsts.allocated, h.alloc_of_get hfull hget]
      exact h

lemma extends_allocated (consts : FuncLocalConsts) (value : UntypedVal) :
    consts.Extends (consts.allocated value) := by
  rw [allocated]
  cases halloc : consts.alloc value with
  | ok result => exact (alloc_ok halloc).1
  | error failure => exact Extends.refl consts

/-! ## Sequences of values -/

/-- The pool in front of the value at `n`. -/
def pool (values : List UntypedVal) (n : Nat) : FuncLocalConsts :=
  (values.take n).foldl allocated reset

variable {values : List UntypedVal} {m n : Nat}

lemma pool_succ (h : values[n]? = some value) :
    pool values (n + 1) = (pool values n).allocated value := by
  rw [pool, List.take_add_one, h, List.foldl_append]
  rfl

lemma pool_succ_of_none (h : values[n]? = none) : pool values (n + 1) = pool values n := by
  rw [pool, List.take_add_one, h]
  simp [pool]

lemma inverse_pool (values : List UntypedVal) (n : Nat) : (pool values n).Inverse := by
  have hfold : ∀ (values : List UntypedVal) (consts : FuncLocalConsts), consts.Inverse →
      (values.foldl allocated consts).Inverse := by
    intro values
    induction values with
    | nil => exact fun _ h => h
    | cons value values ih => exact fun _ h => ih _ (h.allocated value)
  exact hfold _ _ inverse_reset

/-- Later values leave the registers of earlier ones alone. -/
lemma extends_pool (values : List UntypedVal) (h : m ≤ n) :
    (pool values m).Extends (pool values n) := by
  induction n, h using Nat.le_induction with
  | base => exact Extends.refl _
  | succ n _ ih =>
    cases hvalue : values[n]? with
    | none => rwa [pool_succ_of_none hvalue]
    | some value =>
      rw [pool_succ hvalue]
      exact ih.trans (extends_allocated _ value)

/-- The value at `n` is allocated and has the register. -/
structure HandedOut (values : List UntypedVal) (n : Nat) (value : UntypedVal) (reg : Reg) :
    Prop where
  value_eq : values[n]? = some value
  alloc_eq : (pool values n).alloc value = .ok (reg, pool values (n + 1))

/-- The pool promises registers that stand for the values, as long as there are registers. -/
structure Keeps (values : List UntypedVal) : Prop where
  /-- Registers are equal iff their values are. -/
  reg_eq_iff : ∀ (m n : Nat) (value value' : UntypedVal) (reg reg' : Reg),
    HandedOut values m value reg → HandedOut values n value' reg' → (reg = reg' ↔ value = value')
  /-- A register keeps its value. -/
  get_eq : ∀ (m n : Nat) (value : UntypedVal) (reg : Reg),
    HandedOut values m value reg → m < n → (pool values n).get reg = some value
  /-- A failure is about a new value for which there is no register, and has no effect. -/
  of_error : ∀ (n : Nat) (value : UntypedVal) (failure : Failure), values[n]? = some value →
    (pool values n).alloc value = .error failure →
      (∀ reg, (pool values n).get reg ≠ some value) ∧
      (∀ reg : Reg, lastIndex < reg → reg.isConst = true →
        ∃ old, (pool values n).get reg = some old) ∧
      pool values (n + 1) = pool values n
  /-- A value of the pool is handed out again. -/
  again : ∀ (n : Nat) (value : UntypedVal) (reg : Reg), values[n]? = some value →
    (pool values n).get reg = some value → HandedOut values n value reg

/-- A full pool has a value for every register but the last one. -/
lemma exists_get_of_full (h : consts.nextIdx = lastIndex) (hlast : lastIndex < reg)
    (hconst : reg.isConst = true) : ∃ value, consts.get reg = some value := by
  have hlow : lastIndex.toInt < reg.toInt := Int16.lt_iff_toInt_lt.1 hlast
  have hhigh : reg.toInt < (0 : Int16).toInt := Int16.lt_iff_toInt_lt.1 (of_decide_eq_true hconst)
  have hmin : lastIndex.toInt = -32768 := rfl
  have hzero : (0 : Int16).toInt = 0 := rfl
  have hlength := nextIdx_eq_lastIndex.1 h
  have hindex : reg.toInt = -1 - ((-1 - reg.toInt).toNat : Int) := by omega
  rw [get_of_toInt hindex]
  exact ⟨_, List.getElem?_eq_getElem (by omega)⟩

lemma not_full_of_alloc {result : Reg × FuncLocalConsts} (h : consts.alloc value = .ok result) :
    consts.nextIdx ≠ lastIndex := by
  intro hfull
  rw [alloc_of_full hfull] at h
  cases h

lemma full_of_alloc {failure : Failure} (hinverse : consts.Inverse)
    (h : consts.alloc value = .error failure) : consts.nextIdx = lastIndex := by
  by_contra hroom
  by_cases hnew : ∀ reg, consts.get reg ≠ some value
  · rw [hinverse.alloc_of_new hroom hnew] at h
    cases h
  · simp only [not_forall, not_not] at hnew
    obtain ⟨reg, hget⟩ := hnew
    rw [hinverse.alloc_of_get hroom hget] at h
    cases h

lemma HandedOut.get_eq (h : HandedOut values m value reg) (hlt : m < n) :
    (pool values n).get reg = some value :=
  extends_pool values hlt reg value (alloc_ok h.alloc_eq).2.1

lemma HandedOut.reg_eq_iff {reg' : Reg} (h : HandedOut values m value reg)
    (h' : HandedOut values n value' reg') : reg = reg' ↔ value = value' := by
  -- both registers are in the pool behind the two values
  have hget := h.get_eq (show m < max m n + 1 by omega)
  have hget' := h'.get_eq (show n < max m n + 1 by omega)
  constructor
  · rintro rfl
    rw [hget] at hget'
    exact Option.some.inj hget'
  · rintro rfl
    exact (inverse_pool values _).get_inj hget hget'

/-- The pool is full when a value that is in it is allocated. -/
lemma not_keeps (hvalue : values[n]? = some value) (hget : (pool values n).get reg = some value)
    (hfull : (pool values n).nextIdx = lastIndex) : ¬Keeps values := by
  intro h
  exact not_full_of_alloc (h.again n value reg hvalue hget).alloc_eq hfull

/-- The pool keeps its promises for the values of a sequence iff it is not full when one of the
values is allocated again. -/
theorem keeps_iff (values : List UntypedVal) :
    Keeps values ↔ ∀ (n : Nat) (value : UntypedVal) (reg : Reg), values[n]? = some value →
      (pool values n).get reg = some value → (pool values n).lenConsts < 32767 := by
  simp only [lenConsts_lt_iff]
  constructor
  · intro h n value reg hvalue hget
    exact not_full_of_alloc (h.again n value reg hvalue hget).alloc_eq
  · intro h
    refine ⟨fun m n value value' reg reg' h h' => h.reg_eq_iff h', fun m n value reg h hlt =>
      h.get_eq hlt, ?_, ?_⟩
    · intro n value failure hvalue herror
      have hfull := full_of_alloc (inverse_pool values n) herror
      refine ⟨fun reg hget => h n value reg hvalue hget hfull, ?_, ?_⟩
      · intro reg hlast hconst
        exact exists_get_of_full hfull hlast hconst
      · rw [pool_succ hvalue, allocated, herror]
    · intro n value reg hvalue hget
      have halloc := (inverse_pool values n).alloc_of_get (h n value reg hvalue hget) hget
      exact ⟨hvalue, by rw [pool_succ hvalue, allocated, halloc]⟩

/-- Values without repetitions are in the pool in their order. -/
lemma idx2const_pool (hnodup : values.Nodup) (hle : values.length ≤ 32767)
    (hn : n ≤ values.length) : (pool values n).idx2const = values.take n := by
  induction n with
  | zero => rfl
  | succ n ih =>
    have hold := ih (by omega)
    have hvalue := List.getElem?_eq_getElem (show n < values.length by omega)
    have hroom : (pool values n).nextIdx ≠ lastIndex := by
      rw [Ne, nextIdx_eq_lastIndex, hold, List.length_take]
      omega
    have hnew : ∀ reg, (pool values n).get reg ≠ some values[n] := by
      intro reg hget
      obtain ⟨i, -, hi⟩ := toInt_of_get hget
      rw [hold, List.getElem?_take] at hi
      split at hi
      · obtain ⟨_, heq⟩ := List.getElem?_eq_some_iff.1 hi
        have hin := (List.Nodup.getElem_inj_iff hnodup).1 heq
        omega
      · cases hi
    rw [pool_succ hvalue, allocated, (inverse_pool values n).alloc_of_new hroom hnew]
    show (pool values n).idx2const ++ [values[n]] = _
    rw [hold, List.take_add_one, hvalue]
    rfl

/-- As many values as there are registers. -/
def smallConsts : List UntypedVal := (List.range 32767).map (BitVec.ofNat 64)

lemma length_smallConsts : smallConsts.length = 32767 := by
  rw [smallConsts, List.length_map, List.length_range]

lemma nodup_smallConsts : smallConsts.Nodup := by
  apply List.Nodup.map_on
  · intro i hi j hj heq
    rw [List.mem_range] at hi hj
    have htoNat := congrArg BitVec.toNat heq
    rw [BitVec.toNat_ofNat, BitVec.toNat_ofNat] at htoNat
    omega
  · exact List.nodup_range

/-- The constant 0 is in the pool, which is full. -/
theorem smallConsts_zero_not_kept : ¬Keeps (smallConsts ++ [0]) := by
  have hlength := length_smallConsts
  have hpool : pool (smallConsts ++ [0]) 32767 = pool smallConsts 32767 := by
    rw [pool, pool, List.take_append_of_le_length (by omega)]
  have hconsts : (pool (smallConsts ++ [0]) 32767).idx2const = smallConsts := by
    rw [hpool, idx2const_pool nodup_smallConsts (by omega) (by omega)]
    exact List.take_of_length_le (by omega)
  have hvalue : (smallConsts ++ [0])[32767]? = some 0 := by
    rw [List.getElem?_append_right (by omega), hlength]
    rfl
  have hget : (pool (smallConsts ++ [0]) 32767).get (-1) = some 0 := by
    rw [get_of_toInt (show (-1 : Reg).toInt = -1 - (0 : Nat) from rfl), hconsts, smallConsts,
      List.getElem?_map, List.getElem?_range (by omega)]
    rfl
  exact not_keeps hvalue hget (nextIdx_eq_lastIndex.2 (by rw [hconsts, hlength]))

end FuncLocalConsts

end Translator

end MotokoDebugger
