import Mathlib.Algebra.Ring.Nat
import Mathlib.Tactic.Common

/-!
# 16-bit signed integers

* `toInt_add_of_mem`, `toInt_sub_of_mem`: sums and differences that do not wrap.
* `toInt_max`, `toInt_min`, `toInt_ofNat_of_lt`, `toInt_toInt16`: conversions to `Int`.
* `absDiff`, `saturatingAdd`: two operations of the Rust type `i16`.
-/

namespace Index16

variable {a b : Int16}

lemma toInt_mem (a : Int16) : -32768 ≤ a.toInt ∧ a.toInt ≤ 32767 := by
  have hlow := a.le_toInt
  have hhigh := a.toInt_lt
  omega

lemma toInt_add_of_mem (hlow : -32768 ≤ a.toInt + b.toInt) (hhigh : a.toInt + b.toInt ≤ 32767) :
    (a + b).toInt = a.toInt + b.toInt := by
  rw [Int16.toInt_add]
  exact Int.bmod_eq_of_le (by omega) (by omega)

lemma toInt_sub_of_mem (hlow : -32768 ≤ a.toInt - b.toInt) (hhigh : a.toInt - b.toInt ≤ 32767) :
    (a - b).toInt = a.toInt - b.toInt := by
  rw [Int16.toInt_sub]
  exact Int.bmod_eq_of_le (by omega) (by omega)

lemma toInt_ofNat_of_lt {n : Nat} (h : n < 2 ^ 15) : (Int16.ofNat n).toInt = n := by
  rw [Int16.toInt_ofNat']
  exact Int.bmod_eq_of_le (by simp only [Int16.size]; omega) (by simp only [Int16.size]; omega)

lemma toInt_max (a b : Int16) : (max a b).toInt = max a.toInt b.toInt := by
  show (if a ≤ b then b else a).toInt = _
  simp only [Int16.le_iff_toInt_le]
  split <;> omega

lemma toInt_min (a b : Int16) : (min a b).toInt = min a.toInt b.toInt := by
  show (if a ≤ b then a else b).toInt = _
  simp only [Int16.le_iff_toInt_le]
  split <;> omega

lemma toInt_toInt16 {x : UInt16} (h : x.toNat < 2 ^ 15) : x.toInt16.toInt = x.toNat := by
  show x.toBitVec.toInt = x.toNat
  exact BitVec.toInt_eq_toNat_of_lt (by show 2 * x.toNat < 2 ^ 16; omega)

/-- `i16::abs_diff`. -/
def absDiff (a b : Int16) : UInt16 := UInt16.ofNat (a.toInt - b.toInt).natAbs

lemma toNat_absDiff (a b : Int16) : (absDiff a b).toNat = (a.toInt - b.toInt).natAbs := by
  have ha := toInt_mem a
  have hb := toInt_mem b
  show (a.toInt - b.toInt).natAbs % 2 ^ 16 = _
  exact Nat.mod_eq_of_lt (by omega)

/-- `i16::saturating_add`. -/
def saturatingAdd (a b : Int16) : Int16 :=
  Int16.ofInt (max (-32768) (min 32767 (a.toInt + b.toInt)))

lemma toInt_saturatingAdd (a b : Int16) :
    (saturatingAdd a b).toInt = max (-32768) (min 32767 (a.toInt + b.toInt)) := by
  rw [saturatingAdd, Int16.toInt_ofInt]
  exact Int.bmod_eq_of_le (by simp only [Int16.size]; omega) (by simp only [Int16.size]; omega)

end Index16
