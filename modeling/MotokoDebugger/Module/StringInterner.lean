import MotokoDebugger.Module.Parser
import MotokoDebugger.Lib.Utf8
import MotokoDebugger.Lib.Tables

/-!
# The string interner

`collections/src/string_interner/detail.rs`, which the default features select. A `BTreeMap` is a
`Std.TreeMap` with the comparison of the source.

* `LenOrderStr.cmp`: the order of strings by length and then by bytes, a linear one.
* `StringInterner.getOrInternWithHint`: symbols of strings, where `none` is a panic.
* `StringInterner.Valid`: symbols and strings correspond to each other.
-/

namespace MotokoDebugger

open Std

/-! ## The order of strings -/

namespace LenOrderStr

/-- The loop over the bytes of two short strings. -/
def cmpLoop : (lhs rhs : List Byte) → Ordering
  | l :: lhs, r :: rhs =>
    match compare l r with
    | .eq => cmpLoop lhs rhs
    | ordering => ordering
  | _, _ => .eq

/-- `LenOrderStr::cmp`. -/
def cmp (self other : String) : Ordering :=
  let lhs := stringBytes self
  let rhs := stringBytes other
  match compare lhs.length rhs.length with
  | .eq => if lhs.length < 8 then cmpLoop lhs rhs else compare lhs rhs
  | ordering => ordering

/-- On bytes of the same number the loop is the comparison of slices. -/
lemma cmpLoop_eq {lhs rhs : List Byte} (h : lhs.length = rhs.length) :
    cmpLoop lhs rhs = compare lhs rhs := by
  induction lhs generalizing rhs with
  | nil =>
    rw [List.eq_nil_of_length_eq_zero h.symm]
    rfl
  | cons l lhs ih =>
    match rhs, h with
    | r :: rhs, h =>
      rw [List.compare_cons_cons, ← ih (Nat.succ.inj h), cmpLoop]
      cases compare l r <;> rfl

/-- Strings are compared by their lengths and then by their bytes. -/
lemma cmp_eq : cmp = compareLex (compareOn fun text => (stringBytes text).length)
    (compareOn stringBytes) := by
  funext self other
  have hbytes : compare (stringBytes self).length (stringBytes other).length = .eq →
      cmpLoop (stringBytes self) (stringBytes other) =
        compare (stringBytes self) (stringBytes other) :=
    fun hlen => cmpLoop_eq (Std.compare_eq_iff_eq.1 hlen)
  rw [cmp, compareLex, compareOn, compareOn]
  cases hlen : compare (stringBytes self).length (stringBytes other).length with
  | lt | gt => rfl
  | eq =>
    dsimp only
    rw [hbytes hlen, ite_self]
    rfl

instance : TransCmp cmp := cmp_eq ▸ inferInstance

instance : LawfulEqCmp cmp where
  eq_of_compare {self other} h := by
    rw [cmp_eq, compareLex_eq_eq] at h
    have hbytes : stringBytes self = stringBytes other := Std.compare_eq_iff_eq.1 h.2
    have hdecode : ∀ text, Utf8.decode (stringBytes text) = some text := Utf8.decode_encode
    have hself := hdecode self
    rw [hbytes, hdecode] at hself
    exact (Option.some.inj hself).symm

end LenOrderStr

/-! ## Symbols -/

/-- `Sym`. -/
abbrev Sym := BitVec 32

/-- `Sym::from_usize`; `none` is a panic. -/
def Sym.fromUsize (value : Nat) : Option Sym :=
  if value < 2 ^ 32 then some (BitVec.ofNat 32 value) else none

/-- `InternHint`. -/
inductive InternHint where
  | none | likelyExists | likelyNew
deriving Repr, DecidableEq

/-- `StringInterner`. -/
structure StringInterner where
  string2symbol : TreeMap String Sym LenOrderStr.cmp := ∅
  strings : List String := []

namespace StringInterner

/-- `get_or_intern_hint_new`. -/
def getOrInternHintNew (interner : StringInterner) (string : String) :
    Option (Sym × StringInterner) :=
  match interner.string2symbol[string]? with
  | none => do
    let symbol ← Sym.fromUsize interner.strings.length
    return (symbol, {
      string2symbol := interner.string2symbol.insert string symbol
      strings := interner.strings ++ [string] })
  | some symbol => some (symbol, interner)

/-- `intern`. -/
def intern (interner : StringInterner) (string : String) : Option (Sym × StringInterner) := do
  let symbol ← Sym.fromUsize interner.strings.length
  guard interner.string2symbol[string]?.isNone
  return (symbol, {
    string2symbol := interner.string2symbol.insert string symbol
    strings := interner.strings ++ [string] })

/-- `get_or_intern_hint_existing`. -/
def getOrInternHintExisting (interner : StringInterner) (string : String) :
    Option (Sym × StringInterner) :=
  match interner.string2symbol[string]? with
  | some symbol => some (symbol, interner)
  | none => interner.intern string

/-- `get_or_intern_with_hint`. -/
def getOrInternWithHint (interner : StringInterner) (string : String) :
    InternHint → Option (Sym × StringInterner)
  | .likelyExists => interner.getOrInternHintExisting string
  | .likelyNew | .none => interner.getOrInternHintNew string

/-- `get`. -/
def get (interner : StringInterner) (string : String) : Option Sym :=
  interner.string2symbol[string]?

/-- `resolve`. -/
def resolve (interner : StringInterner) (symbol : Sym) : Option String :=
  interner.strings[symbol.toNat]?

/-! ## Symbols are names -/

/-- Symbols and strings correspond to each other. -/
structure Valid (interner : StringInterner) : Prop where
  get_eq_some : ∀ string symbol,
    interner.get string = some symbol ↔ interner.resolve symbol = some string
  length_le : interner.strings.length ≤ 2 ^ 32

section Interning

variable {interner interner' : StringInterner} {string string' : String} {symbol symbol' : Sym}
  {hint : InternHint}

lemma valid_empty : Valid {} where
  get_eq_some string symbol := by
    show (∅ : TreeMap String Sym LenOrderStr.cmp)[string]? = _ ↔ ([] : List String)[_]? = _
    rw [TreeMap.getElem?_emptyc, List.getElem?_nil]
    simp
  length_le := by decide

/-- Different strings have different symbols. -/
lemma Valid.get_inj (h : interner.Valid) (hget : interner.get string = some symbol)
    (hget' : interner.get string' = some symbol) : string = string' := by
  have hresolve := (h.get_eq_some string symbol).1 hget
  rw [(h.get_eq_some string' symbol).1 hget'] at hresolve
  exact (Option.some.inj hresolve).symm

lemma Valid.toNat_lt (h : interner.Valid) (hget : interner.get string = some symbol) :
    symbol.toNat < interner.strings.length :=
  (List.getElem?_eq_some_iff.1 ((h.get_eq_some string symbol).1 hget)).1

/-- The interner with a new string. -/
def pushed (interner : StringInterner) (string : String) (symbol : Sym) : StringInterner where
  string2symbol := interner.string2symbol.insert string symbol
  strings := interner.strings ++ [string]

/-- A string that is there is not interned again. -/
lemma getOrInternWithHint_of_get (h : interner.get string = some symbol) (hint : InternHint) :
    interner.getOrInternWithHint string hint = some (symbol, interner) := by
  rw [get] at h
  cases hint with
  | likelyExists => rw [getOrInternWithHint, getOrInternHintExisting, h]
  | likelyNew | none => rw [getOrInternWithHint, getOrInternHintNew, h]

/-- On both paths a new string is pushed. -/
lemma getOrInternWithHint_of_none (h : interner.get string = none) (hint : InternHint) :
    interner.getOrInternWithHint string hint =
      (Sym.fromUsize interner.strings.length).map fun symbol =>
        (symbol, interner.pushed string symbol) := by
  rw [get] at h
  cases hint with
  | likelyExists =>
    rw [getOrInternWithHint, getOrInternHintExisting, h]
    show interner.intern string = _
    rw [intern, h]
    cases Sym.fromUsize interner.strings.length <;> rfl
  | likelyNew | none =>
    rw [getOrInternWithHint, getOrInternHintNew, h]
    cases Sym.fromUsize interner.strings.length <;> rfl

lemma toNat_of_fromUsize {value : Nat} (h : Sym.fromUsize value = some symbol) :
    symbol.toNat = value ∧ value < 2 ^ 32 := by
  by_cases hlt : value < 2 ^ 32
  · rw [Sym.fromUsize, if_pos hlt] at h
    rw [← Option.some.inj h, BitVec.toNat_ofNat]
    omega
  · rw [Sym.fromUsize, if_neg hlt] at h
    cases h

lemma get_pushed : (interner.pushed string symbol).get string' =
    if string = string' then some symbol else interner.get string' := by
  show (interner.string2symbol.insert string symbol)[string']? = _
  rw [TreeMap.getElem?_insert]
  simp only [LawfulEqCmp.compare_eq_iff_eq]
  rfl

/-- A new string gets a new symbol. -/
lemma Valid.pushed (h : interner.Valid) (hnone : interner.get string = none)
    (hsymbol : Sym.fromUsize interner.strings.length = some symbol) :
    (interner.pushed string symbol).Valid where
  get_eq_some string' symbol' := by
    obtain ⟨hnat, hlt⟩ := toNat_of_fromUsize hsymbol
    have hold := h.get_eq_some string' symbol'
    rw [get_pushed]
    show _ ↔ (interner.strings ++ [string])[symbol'.toNat]? = some string'
    rw [resolve] at hold
    rw [Tables.getElem?_concat_eq_some, ← hold]
    by_cases hstring : string = string'
    · subst hstring
      rw [if_pos rfl, hnone, Option.some_inj, ← hnat, ← BitVec.toNat_inj]
      simp [eq_comm]
    · simp [hstring]
  length_le := by
    show (interner.strings ++ [string]).length ≤ _
    rw [List.length_append, List.length_singleton]
    have hlt := (toNat_of_fromUsize hsymbol).2
    omega

/-- What interning a string does: it keeps the symbols that there are, and a symbol that it adds is
one beyond them. -/
structure Interned (interner : StringInterner) (string : String) (symbol : Sym)
    (interner' : StringInterner) : Prop where
  valid : interner'.Valid
  get_self : interner'.get string = some symbol
  keeps : ∀ {other symbol'}, interner.get other = some symbol' →
    interner'.get other = some symbol'
  adds : ∀ {other symbol'}, interner'.get other = some symbol' →
    interner.get other = some symbol' ∨ interner.strings.length ≤ symbol'.toNat
  length_le : interner.strings.length ≤ interner'.strings.length
  length_le_succ : interner'.strings.length ≤ interner.strings.length + 1

lemma Valid.interned (h : interner.Valid)
    (hintern : interner.getOrInternWithHint string hint = some (symbol, interner')) :
    interner.Interned string symbol interner' := by
  cases hget : interner.get string with
  | some symbol' =>
    rw [getOrInternWithHint_of_get hget] at hintern
    cases hintern
    exact ⟨h, hget, id, .inl, Nat.le_refl _, Nat.le_succ _⟩
  | none =>
    rw [getOrInternWithHint_of_none hget] at hintern
    obtain ⟨symbol', hsymbol, heq⟩ := Option.map_eq_some_iff.1 hintern
    cases heq
    have hlength : (interner.pushed string symbol).strings.length = interner.strings.length + 1 :=
      List.length_append
    refine ⟨h.pushed hget hsymbol, ?_, ?_, ?_, by omega, by omega⟩
    · rw [get_pushed, if_pos rfl]
    · intro other symbol' hother
      have hne : string ≠ other := by
        intro heq
        rw [← heq, hget] at hother
        cases hother
      rw [get_pushed, if_neg hne, hother]
    · intro other symbol' hother
      rw [get_pushed] at hother
      by_cases hne : string = other
      · rw [if_pos hne] at hother
        rw [← Option.some.inj hother, (toNat_of_fromUsize hsymbol).1]
        exact .inr (Nat.le_refl _)
      · rw [if_neg hne] at hother
        exact .inl hother

/-- Interning panics only when there are as many symbols as there can be. -/
lemma full_of_none (hintern : interner.getOrInternWithHint string hint = none) :
    interner.get string = none ∧ 2 ^ 32 ≤ interner.strings.length := by
  cases hget : interner.get string with
  | some symbol =>
    rw [getOrInternWithHint_of_get hget] at hintern
    cases hintern
  | none =>
    rw [getOrInternWithHint_of_none hget, Option.map_eq_none_iff, Sym.fromUsize] at hintern
    by_cases hlt : interner.strings.length < 2 ^ 32
    · rw [if_pos hlt] at hintern
      cases hintern
    · exact ⟨rfl, by omega⟩

end Interning

end StringInterner

end MotokoDebugger
