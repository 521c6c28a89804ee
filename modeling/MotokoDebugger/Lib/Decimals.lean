import Mathlib.Algebra.Ring.Int.Defs
import Mathlib.Algebra.Ring.Nat
import Mathlib.Data.List.TakeWhile
import Mathlib.Tactic.Common

/-!
# Numbers in decimal

The texts that `str::parse` of the Rust standard library takes for signed integers and for binary
floating-point numbers, with the numbers they stand for.

* `parseInt_toString`: an integer is read back from its text iff it fits.
* `isSome_parseFloat_toString`: the text of every integer is that of a floating-point number too.
-/

namespace Decimal

/-! ## Integers -/

/-- Is there a minus sign in front? -/
def isNegative : List Char → Bool
  | '-' :: _ => true
  | _ => false

/-- The text behind an optional sign. -/
def dropSign : List Char → List Char
  | '-' :: cs => cs
  | '+' :: cs => cs
  | cs => cs

/-- The number that some digits stand for. -/
def parseDigits (cs : List Char) : Option Nat :=
  if cs ≠ [] ∧ cs.all Char.isDigit then some (Nat.ofDigitChars 10 cs 0) else none

/-- The integer that a text stands for: an optional sign and some digits. -/
def parseSigned (cs : List Char) : Option Int :=
  (parseDigits (dropSign cs)).map fun n : Nat => if isNegative cs then -(n : Int) else n

/-- Is an integer one of `w` bits in two's complement? -/
def InRange (w : Nat) (z : Int) : Prop := -2 ^ (w - 1) ≤ z ∧ z < 2 ^ (w - 1)

instance (w : Nat) (z : Int) : Decidable (InRange w z) :=
  inferInstanceAs (Decidable (_ ∧ _))

/-- `str::parse` for the signed integers of `w` bits. -/
def parseInt (w : Nat) (text : String) : Option Int :=
  (parseSigned text.toList).filter fun z => InRange w z

/-! ## Floating-point numbers -/

/-- A binary interchange format, without the sign. -/
structure FloatFormat where
  mantissaBits : Nat
  exponentBits : Nat

def binary32 : FloatFormat := ⟨23, 8⟩

def binary64 : FloatFormat := ⟨52, 11⟩

namespace FloatFormat

variable (format : FloatFormat)

def infinity : Nat := (2 ^ format.exponentBits - 1) * 2 ^ format.mantissaBits

def nan : Nat := format.infinity + 2 ^ (format.mantissaBits - 1)

def signBit : Nat := 2 ^ (format.mantissaBits + format.exponentBits)

/-- The exponent of the smallest normal number. -/
def minExponent : Int := 2 - 2 ^ (format.exponentBits - 1)

end FloatFormat

/-- The integer nearest to a quotient, and of two that are as near the even one. -/
def divNearestEven (num den : Nat) : Nat :=
  if den < 2 * (num % den) ∨ (2 * (num % den) = den ∧ num / den % 2 = 1) then num / den + 1
  else num / den

/-- The exponent of the highest bit of a positive quotient. -/
def leadingExponent (num den : Nat) : Int :=
  let exponent := (num.log2 : Int) - den.log2
  if den * 2 ^ exponent.toNat ≤ num * 2 ^ (-exponent).toNat then exponent else exponent - 1

/-- The bits of the number nearest to a quotient. The mantissa of a normal number is counted with
its leading bit, which adds one to the field of the exponent; a carry out of it does so too. -/
def FloatFormat.round (format : FloatFormat) (num den : Nat) : Nat :=
  if num = 0 then 0
  else
    let exponent := max (leadingExponent num den) format.minExponent
    let shift := format.mantissaBits - exponent
    let mantissa := divNearestEven (num * 2 ^ shift.toNat) (den * 2 ^ (-shift).toNat)
    min ((exponent - format.minExponent).toNat * 2 ^ format.mantissaBits + mantissa) format.infinity

/-- The exponent behind a number, if there is one. -/
def parseExponent : List Char → Option Int
  | [] => some 0
  | c :: cs => if c = 'e' ∨ c = 'E' then parseSigned cs else none

/-- The digits behind a point, if there is one. -/
def fraction : List Char → List Char
  | '.' :: cs => cs.takeWhile Char.isDigit
  | _ => []

/-- The text behind the digits behind a point. -/
def dropFraction : List Char → List Char
  | '.' :: cs => cs.dropWhile Char.isDigit
  | cs => cs

/-- The bits of a number without a sign: digits with a point somewhere, and an exponent. -/
def FloatFormat.parseNumber (format : FloatFormat) (cs : List Char) : Option Nat :=
  let whole := cs.takeWhile Char.isDigit
  let rest := cs.dropWhile Char.isDigit
  let digits := whole ++ fraction rest
  if digits = [] then none
  else
    (parseExponent (dropFraction rest)).map fun exponent =>
      let exponent : Int := exponent - (fraction rest).length
      format.round (Nat.ofDigitChars 10 digits 0 * 10 ^ exponent.toNat) (10 ^ (-exponent).toNat)

/-- The bits of what stands behind an optional sign, in letters of either case. -/
def FloatFormat.parseMagnitude (format : FloatFormat) (cs : List Char) : Option Nat :=
  let word := String.ofList (cs.map Char.toLower)
  if word = "inf" ∨ word = "infinity" then some format.infinity
  else if word = "nan" then some format.nan
  else format.parseNumber cs

/-- `str::parse` for the floating-point numbers of a format, to their bits. -/
def parseFloat (format : FloatFormat) (text : String) : Option Nat :=
  (format.parseMagnitude (dropSign text.toList)).map fun bits =>
    if isNegative text.toList then format.signBit + bits else bits

/-! ## The text of an integer -/

lemma parseDigits_toDigits (n : Nat) : parseDigits (Nat.toDigits 10 n) = some n := by
  have hdigits : (Nat.toDigits 10 n).all Char.isDigit := by
    rw [List.all_eq_true]
    intro c hc
    exact Nat.isDigit_of_mem_toDigits (by decide) (by decide) hc
  rw [parseDigits, if_pos ⟨Nat.toDigits_ne_nil, hdigits⟩, Nat.ofDigitChars_ten_toDigits]

/-- No sign stands in front of digits. -/
lemma sign_of_isDigit {c : Char} {cs : List Char} (h : c.isDigit) :
    isNegative (c :: cs) = false ∧ dropSign (c :: cs) = c :: cs := by
  have hminus : c ≠ '-' := by
    rintro rfl
    exact absurd h (by decide)
  have hplus : c ≠ '+' := by
    rintro rfl
    exact absurd h (by decide)
  constructor
  · unfold isNegative
    split
    · exact absurd (by simp_all) hminus
    · rfl
  · unfold dropSign
    split
    · exact absurd (by simp_all) hminus
    · exact absurd (by simp_all) hplus
    · rfl

lemma sign_toDigits (n : Nat) :
    isNegative (Nat.toDigits 10 n) = false ∧
      dropSign (Nat.toDigits 10 n) = Nat.toDigits 10 n := by
  cases hcs : Nat.toDigits 10 n with
  | nil => exact absurd hcs Nat.toDigits_ne_nil
  | cons c cs =>
    apply sign_of_isDigit
    have hmem : c ∈ Nat.toDigits 10 n := by simp [hcs]
    exact Nat.isDigit_of_mem_toDigits (by decide) (by decide) hmem

/-- The text of an integer is that of its magnitude, behind a minus sign if it is negative. -/
lemma toList_toString (z : Int) :
    (toString z).toList =
      if z < 0 then '-' :: Nat.toDigits 10 z.natAbs else Nat.toDigits 10 z.natAbs := by
  rw [Int.toString_eq_repr]
  by_cases hneg : z < 0
  · have habs : (-z).toNat = z.natAbs := by omega
    rw [if_pos hneg, Int.repr_eq_if, if_neg (by omega), String.toList_append, Nat.toList_repr, habs]
    rfl
  · have habs : z.toNat = z.natAbs := by omega
    rw [if_neg hneg, Int.repr_eq_if, if_pos (by omega), Nat.toList_repr, habs]

lemma dropSign_toString (z : Int) :
    dropSign (toString z).toList = Nat.toDigits 10 z.natAbs := by
  rw [toList_toString]
  split
  · rfl
  · exact (sign_toDigits _).2

lemma isNegative_toString (z : Int) : isNegative (toString z).toList = decide (z < 0) := by
  rw [toList_toString]
  split
  case isTrue hneg => simp [isNegative, hneg]
  case isFalse hneg => simp [(sign_toDigits _).1, hneg]

lemma parseSigned_toString (z : Int) : parseSigned (toString z).toList = some z := by
  have hvalue : (if decide (z < 0) then -(z.natAbs : Int) else z.natAbs) = z := by
    by_cases hneg : z < 0
    · rw [if_pos (decide_eq_true hneg)]
      omega
    · rw [if_neg (by simpa using hneg)]
      omega
  rw [parseSigned, dropSign_toString, parseDigits_toDigits, isNegative_toString, Option.map_some,
    hvalue]

/-- An integer is read back from its text iff it fits. -/
theorem parseInt_toString (w : Nat) (z : Int) :
    parseInt w (toString z) = if InRange w z then some z else none := by
  rw [parseInt, parseSigned_toString]
  by_cases h : InRange w z <;> simp [h]

/-- The text of an integer is that of a floating-point number too. -/
theorem isSome_parseFloat_toString (format : FloatFormat) (z : Int) :
    (parseFloat format (toString z)).isSome := by
  have hall : ∀ c ∈ Nat.toDigits 10 z.natAbs, c.isDigit = true := fun c hc =>
    Nat.isDigit_of_mem_toDigits (by decide) (by decide) hc
  have htake : (Nat.toDigits 10 z.natAbs).takeWhile Char.isDigit = Nat.toDigits 10 z.natAbs :=
    List.takeWhile_eq_self_iff.mpr hall
  have hdrop : (Nat.toDigits 10 z.natAbs).dropWhile Char.isDigit = [] :=
    List.dropWhile_eq_nil_iff.mpr hall
  have hnumber : (format.parseNumber (Nat.toDigits 10 z.natAbs)).isSome := by
    simp [FloatFormat.parseNumber, htake, hdrop, fraction, dropFraction, parseExponent,
      Nat.toDigits_ne_nil]
  rw [parseFloat, Option.isSome_map, dropSign_toString, FloatFormat.parseMagnitude]
  split
  · rfl
  split
  · rfl
  · exact hnumber

end Decimal
