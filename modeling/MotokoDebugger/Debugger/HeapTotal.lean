import MotokoDebugger.Debugger.HeapMoves
import MotokoDebugger.Debugger.Scalars
import Mathlib.Order.Filter.AtTopBot.Basic
import Mathlib.Order.Filter.Finite

/-!
# When the display of the heap comes to an end

* `Readable`: the objects that the display of a text shows without an error.
* `Finite`: the objects from which the display descends finitely often, and at whose big integers
  it finds a function to convert them.
* `total_iff_finite`: these are the objects whose display returns, with a text or with an error.
-/

namespace MotokoDebugger

open StateExcept Executor Filter

namespace Debugger

variable {T : Type}

/-! ## Objects in the memory -/

/-- The offset of the first word behind the header. -/
abbrev fieldOffset : BitVec 32 := TAG_OFFSET + DATA_OFFSET

/-- The offset of the element `i` of an array, or of a byte of a text. -/
abbrev elementOffset (size i : Nat) : BitVec 32 :=
  TAG_OFFSET + ARRAY_VAR_T_DATA_OFFSET + BitVec.ofNat 32 (i * size)

section Objects

variable (memory : List Byte) (address : UntypedVal)

/-- The length of the array at an address, if it can be read. -/
def arrayLen : Option Nat :=
  if InBounds .i32Load memory address fieldOffset then
    some (valueAt .i32Load memory address fieldOffset).toI32.toNat
  else none

/-- The number of bytes of the text at an address, if it can be read. -/
def textLen : Option Nat :=
  if InBounds .i32Load memory address fieldOffset then
    some (valueAt .i32Load memory address fieldOffset).toNat
  else none

/-- The element `i` of the array at an address, for values of a type. -/
def ElementIn (valType : ValType) (i : Nat) : Prop :=
  ∃ op size, heapLoadOp valType = some op ∧ getHeapTypeSize valType = some size ∧
    InBounds op memory address (elementOffset size i)

/-- The value of that element. -/
def element (valType : ValType) (i : Nat) : UntypedVal :=
  match heapLoadOp valType, getHeapTypeSize valType with
  | some op, some size => valueAt op memory address (elementOffset size i)
  | _, _ => 0

/-- The fields of a concatenation can be read. -/
def ConcatIn : Prop :=
  InBounds .i32Load memory address fieldOffset ∧
    InBounds .i32Load memory address (TAG_OFFSET + ARRAY_VAR_T_DATA_OFFSET) ∧
    InBounds .i32Load memory address (TAG_OFFSET + ARRAY_VAR_T_DATA_OFFSET + 4)

/-- The first part of a concatenation. -/
def concatFirst : UntypedVal :=
  valueAt .i32Load memory address (TAG_OFFSET + ARRAY_VAR_T_DATA_OFFSET)

/-- The second part of a concatenation. -/
def concatSecond : UntypedVal :=
  valueAt .i32Load memory address (TAG_OFFSET + ARRAY_VAR_T_DATA_OFFSET + 4)

/-- The display reads an object of this tag, other than a concatenation, without an error when it
shows it as a part of a text. -/
def ReadsFields : Tagged → Prop
  | .mutBox | .variant => InBounds .i32Load memory address fieldOffset
  | .bits64Float => InBounds .f64Load memory address fieldOffset
  | .bits32Float => InBounds .f32Load memory address fieldOffset
  | .blobText => ∃ len, textLen memory address = some len ∧
      ∀ i < len, InBounds .i32Load8U memory address
        (TAG_OFFSET + ARRAY_VAR_T_DATA_OFFSET + BitVec.ofNat 32 i)
  | .arrayVarT | .arrayT => ∃ len, arrayLen memory address = some len ∧
      ∀ i < len, ElementIn memory address .i32 i
  | .bigInt | .concat => False
  | _ => True

end Objects

/-- The objects that are shown without an error as a part of a text. -/
inductive Readable (memory : List Byte) : UntypedVal → Prop where
  | fields {address : UntypedVal} {tagged : Tagged} : tagAt memory address = some tagged →
      ReadsFields memory address tagged → Readable memory address
  | concat {address : UntypedVal} : tagAt memory address = some .concat →
      ConcatIn memory address → Readable memory (concatFirst memory address) →
      Readable memory (concatSecond memory address) → Readable memory address

/-- Does the display show an object of this tag without a look at other objects? -/
def isFlat : Tagged → Bool
  | .arrayVarT | .arrayT | .bigInt | .concat => false
  | _ => true

/-- Is it an array that the display looks into? -/
def isArray : Tagged → Bool
  | .arrayVarT | .arrayT => true
  | _ => false

/-- There is a function to convert a big integer, where one is used. -/
def HasFunc (funcs : BigintFuncs) : ValType → Bool
  | .f64 => funcs.toFloat64.isSome
  | .i32 => funcs.toWord32Wrap.isSome
  | .i64 => funcs.toWord64Wrap.isSome
  | _ => true

/-- An element of an array that the display takes for a pointer. -/
def IsPointer (valType : ValType) (value : UntypedVal) : Prop :=
  ¬ (value &&& 1 = 0 ∧ valType.isFloat = false)

/-- From the object, the display descends finitely often: into the elements of an array up to the
first one that it cannot read, and into the second part of a concatenation where the first one is
readable. It meets no big integer without a function to convert it, and no array of references. -/
inductive Finite (memory : List Byte) : UntypedVal → ValType → BigintFuncs → Prop where
  | flat {address : UntypedVal} {valType : ValType} {funcs : BigintFuncs} :
      (∀ tagged, tagAt memory address = some tagged → isFlat tagged = true) →
      Finite memory address valType funcs
  | bigInt {address : UntypedVal} {valType : ValType} {funcs : BigintFuncs} :
      tagAt memory address = some .bigInt → HasFunc funcs valType = true →
      Finite memory address valType funcs
  | array {address : UntypedVal} {valType : ValType} {funcs : BigintFuncs} {tagged : Tagged} :
      tagAt memory address = some tagged → isArray tagged = true →
      (∀ len, arrayLen memory address = some len → len = 0 ∨ valType.isNum = true) →
      (∀ len i, arrayLen memory address = some len → i < len →
        (∀ j ≤ i, ElementIn memory address valType j) →
        IsPointer valType (element memory address valType i) →
        Finite memory (element memory address valType i) valType funcs) →
      Finite memory address valType funcs
  | concat {address : UntypedVal} {valType : ValType} {funcs : BigintFuncs} :
      tagAt memory address = some .concat →
      (ConcatIn memory address → Finite memory (concatFirst memory address) .i32 .none) →
      (ConcatIn memory address → Readable memory (concatFirst memory address) →
        Finite memory (concatSecond memory address) .i32 .none) →
      Finite memory address valType funcs

/-! ## What a display comes to -/

/-- An error of the source. -/
def IsFault : HeapStop → Prop
  | .stopped (.fault _) => True
  | _ => False

/-- The display returns, with a text or with an error, however deep it may descend from some depth
on. -/
def Total (env : HeapEnv T) (l : Local T) (address : UntypedVal) (valType : ValType)
    (funcs : BigintFuncs) : Prop :=
  ∃ depth, ∀ n ≥ depth, Settles IsFault (displayLocalInHeap env n address valType funcs) l

/-- The functions of the program that convert big integers leave the memory as it is. -/
def KeepsMemory (env : HeapEnv T) : Prop :=
  ∀ func inputs output (l : Local T) memory, Holds l memory →
    Holds { l with store := (env.call func inputs output l.store).2 } memory

/-- `x` returns. -/
def Succeeds (x : HeapM T String) (l : Local T) : Prop := ∃ text l', x l = .ok text l'

/-- A computation that leaves the bytes of the memory as they are. -/
abbrev Keeping (memory : List Byte) (x : HeapM T String) : Prop :=
  Moves (fun l l' : Local T => Holds l memory → Holds l' memory) x

section Rules

variable {memory : List Byte} {address : UntypedVal} {offset : BitVec 32} {op : LoadOp}

lemma loadWith_eq_ok {l l' : Local T} {value : UntypedVal} :
    loadWith op memory address offset l = .ok value l' ↔
      InBounds op memory address offset ∧ valueAt op memory address offset = value ∧ l = l' := by
  by_cases h : InBounds op memory address offset
  · simp [loadWith_of_inBounds h, h]
  · simp [loadWith_of_not_inBounds h, h]

lemma settles_loadWith (l : Local T) :
    Settles IsFault (loadWith op memory address offset) l := by
  by_cases h : InBounds op memory address offset
  · exact settles_ok (loadWith_of_inBounds h l)
  · exact (settles_error (loadWith_of_not_inBounds h l)).mpr trivial

/-- A load, and then the rest. -/
lemma settles_loadWith_bind {f : UntypedVal → HeapM T String} {l : Local T} :
    Settles IsFault (loadWith op memory address offset >>= f) l ↔
      (InBounds op memory address offset →
        Settles IsFault (f (valueAt op memory address offset)) l) := by
  rw [settles_bind]
  constructor
  · intro h hbounds
    exact h.2 _ _ (loadWith_of_inBounds hbounds l)
  · intro h
    refine ⟨settles_loadWith l, fun value l' hload => ?_⟩
    obtain ⟨hbounds, rfl, rfl⟩ := loadWith_eq_ok.mp hload
    exact h hbounds

lemma succeeds_loadWith_bind {f : UntypedVal → HeapM T String} {l : Local T} :
    Succeeds (loadWith op memory address offset >>= f) l ↔
      InBounds op memory address offset ∧ Succeeds (f (valueAt op memory address offset)) l := by
  unfold Succeeds
  by_cases h : InBounds op memory address offset
  · simp [bind_ok (loadWith_of_inBounds h l), h]
  · simp [bind_error (loadWith_of_not_inBounds h l), h]

/-- Putting a text around that of `x`. -/
lemma succeeds_bind_pure {x : HeapM T String} {f : String → String} {l : Local T} :
    Succeeds (x >>= fun text => pure (f text)) l ↔ Succeeds x l := by
  constructor
  · rintro ⟨_, _, h⟩
    obtain ⟨text, l', hx, -⟩ := bind_eq_ok.mp h
    exact ⟨text, l', hx⟩
  · rintro ⟨text, l', hx⟩
    exact ⟨f text, l', by rw [bind_ok hx]; rfl⟩

/-- A display that calls nothing but functions that leave the memory as it is. -/
lemma KeepsMemory.allows {env : HeapEnv T} (henv : KeepsMemory env) (memory : List Byte) :
    Allows env fun l l' => Holds l memory → Holds l' memory where
  refl _ := id
  trans _ _ _ hab hbc h := hbc (hab h)
  call func inputs output l := henv func inputs output l memory

lemma Keeping.holds {x : HeapM T String} {l l' : Local T} {text : String} (h : Keeping memory x)
    (hholds : Holds l memory) (hx : x l = .ok text l') : Holds l' memory := by
  have hmove := h l hholds
  rwa [hx] at hmove

lemma settles_orText {x : HeapM T String} {text : String} {l : Local T} :
    Settles IsFault (x.orText text) l ↔ Settles IsFault x l := by
  unfold Settles HeapM.orText
  cases x l with
  | ok a l' => exact Iff.rfl
  | error stop l' =>
    cases stop with
    | starved => exact Iff.rfl
    | stopped stop => cases stop <;> simp [IsFault]

lemma succeeds_orText {x : HeapM T String} {text : String} {l : Local T}
    (h : Settles IsFault x l) : Succeeds (x.orText text) l := by
  unfold Succeeds HeapM.orText
  rcases h.cases with ⟨a, l', hx⟩ | ⟨stop, l', hx, hfault⟩
  · exact ⟨a, l', by rw [hx]⟩
  · cases stop with
    | starved => cases hfault
    | stopped stop =>
      cases stop with
      | fault error => exact ⟨text, l', by rw [hx]⟩
      | panic => cases hfault
      | undefined => cases hfault

end Rules

/-! ## Flat objects -/

section Flat

variable {env : HeapEnv T} {memory : List Byte} {address : UntypedVal} {valType : ValType}
  {funcs : BigintFuncs} {l : Local T}

lemma settles_pure (text : String) : Settles IsFault (pure text : HeapM T String) l :=
  settles_ok rfl

/-- A text of `count` bytes from the byte `i` on. -/
lemma settles_blobChars (i count : Nat) :
    Settles IsFault (blobChars memory address i count) l := by
  induction count generalizing i with
  | zero => exact settles_pure _
  | succ count ih =>
    rw [blobChars, settles_loadWith_bind]
    intro _
    rw [settles_bind]
    exact ⟨ih (i + 1), fun _ _ _ => settles_pure _⟩

lemma succeeds_blobChars (i count : Nat) :
    Succeeds (blobChars memory address i count) l ↔
      ∀ j, i ≤ j → j < i + count → InBounds .i32Load8U memory address
        (TAG_OFFSET + ARRAY_VAR_T_DATA_OFFSET + BitVec.ofNat 32 j) := by
  induction count generalizing i with
  | zero => exact iff_of_true ⟨_, _, rfl⟩ fun j hle hlt => absurd hlt (by omega)
  | succ count ih =>
    rw [blobChars, succeeds_loadWith_bind, succeeds_bind_pure, ih]
    constructor
    · rintro ⟨hfirst, hlater⟩ j hle hlt
      by_cases heq : j = i
      · exact heq ▸ hfirst
      · exact hlater j (by omega) (by omega)
    · intro h
      exact ⟨h i (by omega) (by omega), fun j hle hlt => h j (by omega) (by omega)⟩

/-- Flat objects are read, or there is an error. -/
lemma settles_handleFlat {display : UntypedVal → ValType → BigintFuncs → HeapM T String}
    {tagged : Tagged} (h : isFlat tagged = true) :
    Settles IsFault (handleTagged env display memory address valType funcs tagged) l := by
  have hload : ∀ {op : LoadOp} (f : UntypedVal → String), Settles IsFault (do
      let value ← loadWith op memory address (TAG_OFFSET + DATA_OFFSET)
      return f value : HeapM T String) l := by
    intro op f
    rw [settles_loadWith_bind]
    exact fun _ => settles_pure _
  cases tagged with
  | arrayVarT => cases h
  | arrayT => cases h
  | bigInt => cases h
  | concat => cases h
  | mutBox => exact hload _
  | variant => exact hload fun value => "variant tag: " ++ value.debug ++ ", value not supported yet"
  | bits64Float => exact hload _
  | bits32Float => exact hload fun value => env.texts.debugF32 value.toI32
  | blobText =>
    show Settles IsFault (handleBlobText memory address) l
    rw [handleBlobText, settles_loadWith_bind]
    exact fun _ => settles_blobChars 0 _
  | _ => exact settles_pure _

lemma settles_callText (func : Nat) (inputs : List Val) (output : Val) :
    Settles IsFault (callText env func inputs output) l := by
  unfold Settles callText
  split
  · trivial
  · rename_i heq
    split at heq
    · cases heq
    · cases heq
      trivial

/-- A big integer is converted if and only if there is a function for it. -/
lemma settles_handleBigint :
    Settles IsFault (handleBigint env address valType funcs) l ↔
      HasFunc funcs valType = true := by
  have hpanic : ¬ Settles IsFault (HeapM.panic : HeapM T String) l := id
  unfold handleBigint HasFunc
  cases valType with
  | f64 =>
    cases funcs.toFloat64 with
    | none => exact iff_of_false hpanic nofun
    | some func => exact iff_of_true (settles_callText _ _ _) rfl
  | i32 =>
    cases funcs.toWord32Wrap with
    | none => exact iff_of_false hpanic nofun
    | some func => exact iff_of_true (settles_callText _ _ _) rfl
  | i64 =>
    cases funcs.toWord64Wrap with
    | none => exact iff_of_false hpanic nofun
    | some func => exact iff_of_true (settles_callText _ _ _) rfl
  | _ => exact iff_of_true trivial rfl

end Flat

/-! ## Arrays -/

/-- The types of numbers can be loaded, the references cannot. -/
lemma exists_loadOp {valType : ValType} (h : valType.isNum = true) :
    ∃ op size, heapLoadOp valType = some op ∧ getHeapTypeSize valType = some size := by
  cases valType <;> first | exact ⟨_, _, rfl, rfl⟩ | cases h

section Arrays

variable {env : HeapEnv T} {display : UntypedVal → ValType → BigintFuncs → HeapM T String}
  {memory : List Byte} {address : UntypedVal} {valType : ValType} {funcs : BigintFuncs}

lemma settles_displayWasmVal (hnum : valType.isNum = true) {value : UntypedVal} {l : Local T} :
    Settles IsFault (displayWasmVal env display value valType valType.isFloat funcs) l ↔
      (IsPointer valType value → Settles IsFault (display value valType funcs) l) := by
  by_cases hscalar : value &&& 1 = 0 ∧ valType.isFloat = false
  · rw [displayWasmVal, if_pos hscalar]
    refine iff_of_true ?_ fun hpointer => absurd hscalar hpointer
    cases valType <;> first | exact settles_ok rfl | cases hnum
  · rw [displayWasmVal, if_neg hscalar, settles_orText]
    exact ⟨fun h _ => h, fun h => h hscalar⟩

/-- An error of the display of a pointer does not show: there is a text for it. -/
lemma succeeds_displayWasmVal (hnum : valType.isNum = true) {value : UntypedVal} {l : Local T}
    (h : Settles IsFault (displayWasmVal env display value valType valType.isFloat funcs) l) :
    Succeeds (displayWasmVal env display value valType valType.isFloat funcs) l := by
  rw [displayWasmVal] at h ⊢
  by_cases hscalar : value &&& 1 = 0 ∧ valType.isFloat = false
  · rw [if_pos hscalar]
    cases valType <;> first | exact ⟨_, _, rfl⟩ | cases hnum
  · rw [if_neg hscalar] at h ⊢
    exact succeeds_orText (settles_orText.mp h)

/-- One more element. -/
lemma arrayElements_succ {op : LoadOp} {size : Nat} (hop : heapLoadOp valType = some op)
    (hsize : getHeapTypeSize valType = some size) (i count : Nat) :
    arrayElements env display memory address valType funcs i (count + 1) = (do
      let loadedValue ← loadWith op memory address (elementOffset size i)
      let text ← displayWasmVal env display loadedValue valType valType.isFloat funcs
      let rest ← arrayElements env display memory address valType funcs (i + 1) count
      return text ++ ", " ++ rest) := by
  rw [arrayElements, hsize]
  dsimp only [loadFromHeap]
  rw [hop]

lemma elementIn_iff {op : LoadOp} {size : Nat} (hop : heapLoadOp valType = some op)
    (hsize : getHeapTypeSize valType = some size) (i : Nat) :
    ElementIn memory address valType i ↔ InBounds op memory address (elementOffset size i) := by
  constructor
  · rintro ⟨op', size', hop', hsize', hbounds⟩
    cases hop.symm.trans hop'
    cases hsize.symm.trans hsize'
    exact hbounds
  · intro hbounds
    exact ⟨op, size, hop, hsize, hbounds⟩

lemma element_eq {op : LoadOp} {size : Nat} (hop : heapLoadOp valType = some op)
    (hsize : getHeapTypeSize valType = some size) (i : Nat) :
    element memory address valType i = valueAt op memory address (elementOffset size i) := by
  rw [element, hop, hsize]

/-- The display comes to the element `j` of the elements from `i` on, and looks into it. -/
def Visits (memory : List Byte) (address : UntypedVal) (valType : ValType) (i j : Nat) : Prop :=
  (∀ k, i ≤ k → k ≤ j → ElementIn memory address valType k) ∧
    IsPointer valType (element memory address valType j)

/-- The loop over the elements settles where the displays of those that it visits do. -/
lemma settles_arrayElements (henv : KeepsMemory env) (hnum : valType.isNum = true)
    (hkeep : ∀ value, Keeping memory (display value valType funcs)) {i count : Nat}
    (hvisits : ∀ j, i ≤ j → j < i + count → Visits memory address valType i j →
      ∀ l, Holds l memory → Settles IsFault (display (element memory address valType j) valType
        funcs) l) {l : Local T} (hholds : Holds l memory) :
    Settles IsFault (arrayElements env display memory address valType funcs i count) l := by
  obtain ⟨op, size, hop, hsize⟩ := exists_loadOp hnum
  induction count generalizing i l with
  | zero => exact settles_pure _
  | succ count ih =>
    rw [arrayElements_succ hop hsize, settles_loadWith_bind]
    intro hbounds
    have hin : ElementIn memory address valType i := (elementIn_iff hop hsize i).mpr hbounds
    rw [settles_bind, settles_displayWasmVal hnum]
    constructor
    · intro hpointer
      rw [← element_eq hop hsize i] at hpointer ⊢
      have hvisit : Visits memory address valType i i := by
        refine ⟨fun k hle hge => ?_, hpointer⟩
        have heq : k = i := by omega
        exact heq ▸ hin
      exact hvisits i (by omega) (by omega) hvisit l hholds
    · intro text l₁ htext
      have hholds₁ := Keeping.holds (moves_displayWasmVal (henv.allows memory) hkeep _ _) hholds htext
      rw [settles_bind]
      refine ⟨ih (fun j hle hlt hvisit => hvisits j (by omega) (by omega) ⟨?_, hvisit.2⟩) hholds₁,
        fun _ _ _ => settles_pure _⟩
      intro k hle hge
      by_cases heq : k = i
      · exact heq ▸ hin
      · exact hvisit.1 k (by omega) hge

/-- What the loop visits settles, where the loop does. -/
lemma visited_of_settles (henv : KeepsMemory env) (hnum : valType.isNum = true)
    (hkeep : ∀ value, Keeping memory (display value valType funcs)) {i count : Nat} {l : Local T}
    (hholds : Holds l memory)
    (h : Settles IsFault (arrayElements env display memory address valType funcs i count) l)
    {j : Nat} (hle : i ≤ j) (hlt : j < i + count) (hvisit : Visits memory address valType i j) :
    ∃ l', Holds l' memory ∧
      Settles IsFault (display (element memory address valType j) valType funcs) l' := by
  obtain ⟨op, size, hop, hsize⟩ := exists_loadOp hnum
  induction count generalizing i l with
  | zero => exact absurd hlt (by omega)
  | succ count ih =>
    rw [arrayElements_succ hop hsize, settles_loadWith_bind] at h
    have hbounds := (elementIn_iff hop hsize i).mp (hvisit.1 i (by omega) hle)
    have hfirst := settles_bind.mp (h hbounds)
    by_cases heq : j = i
    · have hshown := (settles_displayWasmVal hnum).mp hfirst.1
      rw [← element_eq hop hsize i, ← heq] at hshown
      exact ⟨l, hholds, hshown hvisit.2⟩
    · obtain ⟨text, l₁, htext⟩ := succeeds_displayWasmVal hnum hfirst.1
      have hholds₁ := Keeping.holds (moves_displayWasmVal (henv.allows memory) hkeep _ _) hholds htext
      have hrest := (settles_bind.mp (hfirst.2 text l₁ htext)).1
      have hvisit' : Visits memory address valType (i + 1) j :=
        ⟨fun k hk => hvisit.1 k (by omega), hvisit.2⟩
      exact ih hholds₁ hrest (by omega) (by omega) hvisit'

/-- A loop that settles returns if and only if it can read every element. -/
lemma succeeds_arrayElements (hnum : valType.isNum = true) {i count : Nat} {l : Local T}
    (h : Settles IsFault (arrayElements env display memory address valType funcs i count) l) :
    Succeeds (arrayElements env display memory address valType funcs i count) l ↔
      ∀ j, i ≤ j → j < i + count → ElementIn memory address valType j := by
  obtain ⟨op, size, hop, hsize⟩ := exists_loadOp hnum
  induction count generalizing i l with
  | zero => exact iff_of_true ⟨_, _, rfl⟩ fun j hle hlt => absurd hlt (by omega)
  | succ count ih =>
    rw [arrayElements_succ hop hsize] at h ⊢
    rw [settles_loadWith_bind] at h
    rw [succeeds_loadWith_bind, ← elementIn_iff hop hsize i]
    have hstep : ElementIn memory address valType i → (Succeeds (do
        let text ← displayWasmVal env display (valueAt op memory address (elementOffset size i))
          valType valType.isFloat funcs
        let rest ← arrayElements env display memory address valType funcs (i + 1) count
        return text ++ ", " ++ rest) l ↔
        ∀ j, i + 1 ≤ j → j < i + 1 + count → ElementIn memory address valType j) := by
      intro hin
      have hfirst := settles_bind.mp (h ((elementIn_iff hop hsize i).mp hin))
      obtain ⟨text, l₁, htext⟩ := succeeds_displayWasmVal hnum hfirst.1
      have hrest := (settles_bind.mp (hfirst.2 text l₁ htext)).1
      rw [← ih hrest]
      have hafter := @succeeds_bind_pure T (arrayElements env display memory address valType funcs
        (i + 1) count) (fun rest => text ++ ", " ++ rest) l₁
      rw [← hafter]
      unfold Succeeds
      rw [bind_ok htext]
    constructor
    · rintro ⟨hin, hlater⟩ j hle hlt
      by_cases heq : j = i
      · exact heq ▸ hin
      · exact (hstep hin).mp hlater j (by omega) (by omega)
    · intro hall
      have hin := hall i (by omega) (by omega)
      exact ⟨hin, (hstep hin).mpr fun j hle hlt => hall j (by omega) (by omega)⟩

/-- An array is displayed once its length is read. -/
lemma settles_handleArrayVarT {l : Local T} :
    Settles IsFault (handleArrayVarT env display memory address valType funcs) l ↔
      ∀ len, arrayLen memory address = some len →
        Settles IsFault (arrayElements env display memory address valType funcs 0 len) l := by
  rw [handleArrayVarT, settles_loadWith_bind, arrayLen]
  by_cases hbounds : InBounds .i32Load memory address fieldOffset
  · rw [if_pos hbounds]
    constructor
    · intro h len hlen
      cases hlen
      exact (settles_bind.mp (h hbounds)).1
    · intro h _
      exact settles_bind.mpr ⟨h _ rfl, fun _ _ _ => settles_pure _⟩
  · rw [if_neg hbounds]
    exact iff_of_true (fun h => absurd h hbounds) nofun

lemma succeeds_handleArrayVarT {l : Local T} :
    Succeeds (handleArrayVarT env display memory address valType funcs) l ↔
      ∃ len, arrayLen memory address = some len ∧
        Succeeds (arrayElements env display memory address valType funcs 0 len) l := by
  have htext : ∀ {x : HeapM T String}, Succeeds (do
      let elements ← x
      return "[" ++ elements ++ "]") l ↔ Succeeds x l := succeeds_bind_pure
  rw [handleArrayVarT, succeeds_loadWith_bind, htext, arrayLen]
  by_cases hbounds : InBounds .i32Load memory address fieldOffset
  · rw [if_pos hbounds]
    constructor
    · intro h
      exact ⟨_, rfl, h.2⟩
    · rintro ⟨len, hlen, h⟩
      cases hlen
      exact ⟨hbounds, h⟩
  · rw [if_neg hbounds]
    exact iff_of_false (fun h => hbounds h.1) fun ⟨_, hlen, _⟩ => nomatch hlen

end Arrays

/-! ## Concatenations -/

section Concats

variable {display : UntypedVal → ValType → BigintFuncs → HeapM T String} {memory : List Byte}
  {address : UntypedVal} {l : Local T}

/-- The two displays of a concatenation, behind the loads of its fields. -/
lemma handleConcat_of_in (h : ConcatIn memory address) :
    handleConcat display memory address l = (do
      let text1Str ← display (concatFirst memory address) .i32 .none
      let text2Str ← display (concatSecond memory address) .i32 .none
      return text1Str ++ text2Str : HeapM T String) l := by
  rw [handleConcat, bind_ok (loadWith_of_inBounds h.1 l), bind_ok (loadWith_of_inBounds h.2.1 l),
    bind_ok (loadWith_of_inBounds h.2.2 l)]
  rfl

lemma handleConcat_of_not_in (h : ¬ ConcatIn memory address) :
    handleConcat display memory address l = .error outOfBounds l := by
  rw [handleConcat]
  by_cases hfield : InBounds .i32Load memory address fieldOffset
  · rw [bind_ok (loadWith_of_inBounds hfield l)]
    by_cases hfirst : InBounds .i32Load memory address (TAG_OFFSET + ARRAY_VAR_T_DATA_OFFSET)
    · rw [bind_ok (loadWith_of_inBounds hfirst l)]
      exact bind_error (loadWith_of_not_inBounds (fun hsecond => h ⟨hfield, hfirst, hsecond⟩) l)
    · exact bind_error (loadWith_of_not_inBounds hfirst l)
  · exact bind_error (loadWith_of_not_inBounds hfield l)

lemma settles_handleConcat :
    Settles IsFault (handleConcat display memory address) l ↔
      (ConcatIn memory address →
        Settles IsFault (display (concatFirst memory address) .i32 .none) l ∧
          ∀ text l', display (concatFirst memory address) .i32 .none l = .ok text l' →
            Settles IsFault (display (concatSecond memory address) .i32 .none) l') := by
  by_cases hin : ConcatIn memory address
  · have hparts : Settles IsFault (handleConcat display memory address) l ↔ Settles IsFault (do
        let text1Str ← display (concatFirst memory address) .i32 .none
        let text2Str ← display (concatSecond memory address) .i32 .none
        return text1Str ++ text2Str : HeapM T String) l := by
      unfold Settles
      rw [handleConcat_of_in hin]
    rw [hparts, settles_bind]
    constructor
    · intro h _
      exact ⟨h.1, fun text l' htext => (settles_bind.mp (h.2 text l' htext)).1⟩
    · intro h
      refine ⟨(h hin).1, fun text l' htext => ?_⟩
      exact settles_bind.mpr ⟨(h hin).2 text l' htext, fun _ _ _ => settles_pure _⟩
  · exact iff_of_true ((settles_error (handleConcat_of_not_in hin)).mpr trivial)
      fun h => absurd h hin

lemma succeeds_handleConcat :
    Succeeds (handleConcat display memory address) l ↔
      ConcatIn memory address ∧
        ∃ text l', display (concatFirst memory address) .i32 .none l = .ok text l' ∧
          Succeeds (display (concatSecond memory address) .i32 .none) l' := by
  by_cases hin : ConcatIn memory address
  · unfold Succeeds
    rw [handleConcat_of_in hin]
    constructor
    · rintro ⟨_, _, h⟩
      obtain ⟨text, l', htext, hrest⟩ := bind_eq_ok.mp h
      obtain ⟨text', l'', htext', -⟩ := bind_eq_ok.mp hrest
      exact ⟨hin, text, l', htext, text', l'', htext'⟩
    · rintro ⟨-, text, l', htext, text', l'', htext'⟩
      exact ⟨text ++ text', l'', by rw [bind_ok htext, bind_ok htext']; rfl⟩
  · have herror : ¬ Succeeds (handleConcat display memory address) l := by
      rintro ⟨_, _, h⟩
      cases (handleConcat_of_not_in hin).symm.trans h
    exact iff_of_false herror fun h => hin h.1

end Concats

/-! ## The display -/

section Display

variable {env : HeapEnv T} {memory : List Byte} {address : UntypedVal} {valType : ValType}
  {funcs : BigintFuncs} {l : Local T}

lemma keeping_display (henv : KeepsMemory env) (depth : Nat) (address : UntypedVal)
    (valType : ValType) (funcs : BigintFuncs) :
    Keeping memory (displayLocalInHeap env depth address valType funcs) :=
  moves_displayLocalInHeap (henv.allows memory) depth address valType funcs

/-- An address without an object is an error. -/
lemma settles_of_noTag (hholds : Holds l memory) (htag : tagAt memory address = none)
    (depth : Nat) : Settles IsFault (displayLocalInHeap env (depth + 1) address valType funcs) l := by
  obtain ⟨text, herror⟩ := @display_of_noTag T env memory address valType funcs l hholds htag depth
  exact (settles_error herror).mpr trivial

lemma settles_display {tagged : Tagged} (hholds : Holds l memory)
    (htag : tagAt memory address = some tagged) (depth : Nat) :
    Settles IsFault (displayLocalInHeap env (depth + 1) address valType funcs) l ↔
      Settles IsFault (handleTagged env (displayLocalInHeap env depth) memory address valType funcs
        tagged) l := by
  unfold Settles
  rw [display_of_tag hholds htag]

lemma succeeds_display {tagged : Tagged} (hholds : Holds l memory)
    (htag : tagAt memory address = some tagged) (depth : Nat) :
    Succeeds (displayLocalInHeap env (depth + 1) address valType funcs) l ↔
      Succeeds (handleTagged env (displayLocalInHeap env depth) memory address valType funcs
        tagged) l := by
  unfold Succeeds
  rw [display_of_tag hholds htag]

/-! ## Readable objects -/

lemma readable_of_tag {tagged : Tagged} (htag : tagAt memory address = some tagged)
    (hconcat : tagged ≠ .concat) :
    Readable memory address ↔ ReadsFields memory address tagged := by
  constructor
  · intro h
    cases h with
    | fields htag' hfields =>
      cases htag.symm.trans htag'
      exact hfields
    | concat htag' => exact absurd (Option.some.inj (htag.symm.trans htag')) hconcat
  · exact Readable.fields htag

lemma readable_concat (htag : tagAt memory address = some .concat) :
    Readable memory address ↔ ConcatIn memory address ∧
      Readable memory (concatFirst memory address) ∧
      Readable memory (concatSecond memory address) := by
  constructor
  · intro h
    cases h with
    | fields htag' hfields =>
      cases htag.symm.trans htag'
      exact hfields.elim
    | concat _ hin hfirst hsecond => exact ⟨hin, hfirst, hsecond⟩
  · rintro ⟨hin, hfirst, hsecond⟩
    exact Readable.concat htag hin hfirst hsecond

/-- The text of a flat object returns if and only if its fields can be read. -/
lemma succeeds_handleFlat {display : UntypedVal → ValType → BigintFuncs → HeapM T String}
    {tagged : Tagged} (h : isFlat tagged = true) :
    Succeeds (handleTagged env display memory address valType funcs tagged) l ↔
      ReadsFields memory address tagged := by
  have hload : ∀ {op : LoadOp} (f : UntypedVal → String), Succeeds (do
      let value ← loadWith op memory address (TAG_OFFSET + DATA_OFFSET)
      return f value : HeapM T String) l ↔ InBounds op memory address fieldOffset := by
    intro op f
    rw [succeeds_loadWith_bind]
    exact ⟨fun h => h.1, fun h => ⟨h, _, _, rfl⟩⟩
  cases tagged with
  | arrayVarT => cases h
  | arrayT => cases h
  | bigInt => cases h
  | concat => cases h
  | mutBox => exact hload _
  | variant => exact hload fun value => "variant tag: " ++ value.debug ++ ", value not supported yet"
  | bits64Float => exact hload _
  | bits32Float => exact hload fun value => env.texts.debugF32 value.toI32
  | blobText =>
    show Succeeds (handleBlobText memory address) l ↔ _
    rw [handleBlobText, succeeds_loadWith_bind, succeeds_blobChars]
    unfold ReadsFields textLen
    constructor
    · rintro ⟨hbounds, hchars⟩
      exact ⟨_, if_pos hbounds, fun i hlt => hchars i i.zero_le ((Nat.zero_add _).symm ▸ hlt)⟩
    · rintro ⟨len, hlen, hchars⟩
      by_cases hbounds : InBounds .i32Load memory address fieldOffset
      · rw [if_pos hbounds] at hlen
        cases hlen
        refine ⟨hbounds, fun i _ hlt => hchars i ?_⟩
        rwa [Nat.zero_add] at hlt
      · rw [if_neg hbounds] at hlen
        cases hlen
  | _ => exact iff_of_true ⟨_, _, rfl⟩ trivial

/-- An array is displayed if and only if its elements can be read. -/
lemma succeeds_array_iff {depth : Nat}
    (h : Settles IsFault (handleArrayVarT env (displayLocalInHeap env depth) memory address .i32
      .none) l) :
    Succeeds (handleArrayVarT env (displayLocalInHeap env depth) memory address .i32 .none) l ↔
      ReadsFields memory address .arrayT := by
  have hlen := settles_handleArrayVarT.mp h
  rw [succeeds_handleArrayVarT]
  refine exists_congr fun len => and_congr_right fun heq => ?_
  rw [succeeds_arrayElements rfl (hlen len heq)]
  constructor
  · intro hall i hlt
    exact hall i (by omega) (by omega)
  · intro hall i _ hlt
    exact hall i (by omega)

/-- A display of a part of a text that settles returns if and only if its object is readable. -/
lemma succeeds_iff_readable (henv : KeepsMemory env) {depth : Nat} (hholds : Holds l memory)
    (h : Settles IsFault (displayLocalInHeap env depth address .i32 .none) l) :
    Succeeds (displayLocalInHeap env depth address .i32 .none) l ↔ Readable memory address := by
  induction depth generalizing address l with
  | zero => exact absurd h id
  | succ depth ih =>
    cases htag : tagAt memory address with
    | none =>
      obtain ⟨text, herror⟩ := @display_of_noTag T env memory address .i32 .none l hholds htag depth
      refine iff_of_false ?_ fun hreadable => ?_
      · rintro ⟨_, _, hok⟩
        cases herror.symm.trans hok
      · cases hreadable with
        | fields htag' => cases htag.symm.trans htag'
        | concat htag' => cases htag.symm.trans htag'
    | some tagged =>
      rw [settles_display hholds htag] at h
      rw [succeeds_display hholds htag]
      have hflat : isFlat tagged = true →
          (Succeeds (handleTagged env (displayLocalInHeap env depth) memory address .i32 .none
            tagged) l ↔ Readable memory address) := by
        intro hflat
        rw [readable_of_tag htag (by rintro rfl; cases hflat), succeeds_handleFlat hflat]
      cases tagged with
      | bigInt =>
        change Settles IsFault (handleBigint env address .i32 .none) l at h
        cases settles_handleBigint.mp h
      | arrayT => exact (succeeds_array_iff h).trans (readable_of_tag htag (by decide)).symm
      | arrayVarT => exact (succeeds_array_iff h).trans (readable_of_tag htag (by decide)).symm
      | concat =>
        have hparts := settles_handleConcat.mp h
        rw [readable_concat htag]
        refine succeeds_handleConcat.trans (and_congr_right fun hin => ?_)
        obtain ⟨hfirst, hsecond⟩ := hparts hin
        rw [← ih hholds hfirst]
        constructor
        · rintro ⟨text, l', htext, hrest⟩
          have hholds' := Keeping.holds (keeping_display henv _ _ _ _) hholds htext
          exact ⟨⟨text, l', htext⟩, (ih hholds' (hsecond text l' htext)).mp hrest⟩
        · rintro ⟨⟨text, l', htext⟩, hrest⟩
          have hholds' := Keeping.holds (keeping_display henv _ _ _ _) hholds htext
          exact ⟨text, l', htext, (ih hholds' (hsecond text l' htext)).mpr hrest⟩
      | _ => exact hflat rfl

/-! ## Displays that come to an end -/

/-- The elements of an array of references cannot be read. -/
lemma isNum_of_settles {display : UntypedVal → ValType → BigintFuncs → HeapM T String}
    {i count : Nat} (hcount : count ≠ 0)
    (h : Settles IsFault (arrayElements env display memory address valType funcs i count) l) :
    valType.isNum = true := by
  cases count with
  | zero => exact absurd rfl hcount
  | succ count => cases valType <;> first | rfl | exact h.elim

/-- What the display descends into is finite, if it comes to an end. -/
lemma finite_of_settles (henv : KeepsMemory env) {depth : Nat} (hholds : Holds l memory)
    (h : Settles IsFault (displayLocalInHeap env depth address valType funcs) l) :
    Finite memory address valType funcs := by
  induction depth generalizing address valType funcs l with
  | zero => exact absurd h id
  | succ depth ih =>
    cases htag : tagAt memory address with
    | none =>
      apply Finite.flat
      intro tagged htag'
      cases htag.symm.trans htag'
    | some tagged =>
      rw [settles_display hholds htag] at h
      have harray : isArray tagged = true → Settles IsFault (handleArrayVarT env
          (displayLocalInHeap env depth) memory address valType funcs) l →
          Finite memory address valType funcs := by
        intro hisArray h
        have hlen := settles_handleArrayVarT.mp h
        refine Finite.array htag hisArray (fun len heq => ?_) fun len i heq hlt hin hpointer => ?_
        · by_cases hzero : len = 0
          · exact .inl hzero
          · exact .inr (isNum_of_settles hzero (hlen len heq))
        · have hnum := isNum_of_settles (by omega) (hlen len heq)
          have hvisit : Visits memory address valType 0 i := ⟨fun k _ => hin k, hpointer⟩
          obtain ⟨l', hholds', hsettles⟩ := visited_of_settles henv hnum
            (fun _ => keeping_display henv _ _ _ _) hholds (hlen len heq) (by omega) (by omega)
            hvisit
          exact ih hholds' hsettles
      cases tagged with
      | bigInt => exact Finite.bigInt htag (settles_handleBigint.mp h)
      | arrayT => exact harray rfl h
      | arrayVarT => exact harray rfl h
      | concat =>
        have hparts := settles_handleConcat.mp h
        refine Finite.concat htag (fun hin => ih hholds (hparts hin).1) fun hin hreadable => ?_
        obtain ⟨hfirst, hsecond⟩ := hparts hin
        obtain ⟨text, l', htext⟩ := (succeeds_iff_readable henv hholds hfirst).mpr hreadable
        exact ih (Keeping.holds (keeping_display henv _ _ _ _) hholds htext) (hsecond text l' htext)
      | _ =>
        apply Finite.flat
        intro tagged' htag'
        cases htag.symm.trans htag'
        rfl

/-- The display comes to an end at every depth from some depth on, whatever the state is. -/
def Ends (env : HeapEnv T) (memory : List Byte) (address : UntypedVal) (valType : ValType)
    (funcs : BigintFuncs) : Prop :=
  ∀ᶠ depth in atTop, ∀ l, Holds l memory →
    Settles IsFault (displayLocalInHeap env depth address valType funcs) l

lemma ends_of_tag {tagged : Tagged} (htag : tagAt memory address = some tagged)
    (h : ∀ᶠ depth in atTop, ∀ l, Holds l memory → Settles IsFault (handleTagged env
      (displayLocalInHeap env depth) memory address valType funcs tagged) l) :
    Ends env memory address valType funcs := by
  obtain ⟨bound, hbound⟩ := eventually_atTop.mp h
  refine eventually_atTop.mpr ⟨bound + 1, fun n hn l hholds => ?_⟩
  obtain ⟨depth, rfl⟩ : ∃ depth, n = depth + 1 := ⟨n - 1, by omega⟩
  rw [settles_display hholds htag]
  exact hbound depth (by omega) l hholds

lemma ends_of_noTag (htag : tagAt memory address = none) :
    Ends env memory address valType funcs := by
  refine eventually_atTop.mpr ⟨1, fun n hn l hholds => ?_⟩
  obtain ⟨depth, rfl⟩ : ∃ depth, n = depth + 1 := ⟨n - 1, by omega⟩
  exact settles_of_noTag hholds htag depth

/-- An array ends if the elements that the loop visits do. -/
lemma ends_of_array (henv : KeepsMemory env) {tagged : Tagged}
    (htag : tagAt memory address = some tagged) (hisArray : isArray tagged = true)
    (hnum : ∀ len, arrayLen memory address = some len → len = 0 ∨ valType.isNum = true)
    (hvisits : ∀ len i, arrayLen memory address = some len → i < len →
      Visits memory address valType 0 i →
      Ends env memory (element memory address valType i) valType funcs) :
    Ends env memory address valType funcs := by
  have harray : ∀ᶠ depth in atTop, ∀ l, Holds l memory → Settles IsFault (handleArrayVarT env
      (displayLocalInHeap env depth) memory address valType funcs) l := by
    cases hlen : arrayLen memory address with
    | none =>
      refine Eventually.of_forall fun depth l _ => settles_handleArrayVarT.mpr ?_
      rw [hlen]
      exact nofun
    | some len =>
      -- one depth suffices for all the elements
      have hall : ∀ᶠ depth in atTop, ∀ i ∈ {i | i < len}, Visits memory address valType 0 i →
          ∀ l, Holds l memory → Settles IsFault (displayLocalInHeap env depth
            (element memory address valType i) valType funcs) l := by
        refine (eventually_all_finite (Set.finite_lt_nat len)).mpr fun i hlt => ?_
        by_cases hvisit : Visits memory address valType 0 i
        · filter_upwards [hvisits len i hlen hlt hvisit] with depth h _ using h
        · exact Eventually.of_forall fun depth h => absurd h hvisit
      filter_upwards [hall] with depth h l hholds
      refine settles_handleArrayVarT.mpr fun len' hlen' => ?_
      cases hlen.symm.trans hlen'
      rcases hnum len hlen with rfl | hnum
      · exact settles_pure _
      · refine settles_arrayElements henv hnum (fun _ => keeping_display henv _ _ _ _) ?_ hholds
        exact fun j _ hlt hvisit => h j (by simpa using hlt) hvisit
  apply ends_of_tag htag
  cases tagged with
  | arrayT => exact harray
  | arrayVarT => exact harray
  | _ => cases hisArray

/-- A concatenation ends if its first part does, and its second part where the first one is
readable. -/
lemma ends_of_concat (henv : KeepsMemory env) (htag : tagAt memory address = some .concat)
    (hfirst : ConcatIn memory address → Ends env memory (concatFirst memory address) .i32 .none)
    (hsecond : ConcatIn memory address → Readable memory (concatFirst memory address) →
      Ends env memory (concatSecond memory address) .i32 .none) :
    Ends env memory address valType funcs := by
  apply ends_of_tag htag
  show ∀ᶠ depth in atTop, ∀ l, Holds l memory →
    Settles IsFault (handleConcat (displayLocalInHeap env depth) memory address) l
  by_cases hin : ConcatIn memory address
  · have hrest : ∀ᶠ depth in atTop, Readable memory (concatFirst memory address) → ∀ l,
        Holds l memory → Settles IsFault (displayLocalInHeap env depth
          (concatSecond memory address) .i32 .none) l := by
      by_cases hreadable : Readable memory (concatFirst memory address)
      · filter_upwards [hsecond hin hreadable] with depth h _ using h
      · exact Eventually.of_forall fun depth h => absurd h hreadable
    filter_upwards [hfirst hin, hrest] with depth h₁ h₂ l hholds
    refine settles_handleConcat.mpr fun _ => ⟨h₁ l hholds, fun text l' htext => ?_⟩
    have hreadable := (succeeds_iff_readable henv hholds (h₁ l hholds)).mp ⟨text, l', htext⟩
    exact h₂ hreadable l' (Keeping.holds (keeping_display henv _ _ _ _) hholds htext)
  · exact Eventually.of_forall fun depth l _ =>
      settles_handleConcat.mpr fun h => absurd h hin

/-- Objects from which the display descends finitely often. -/
lemma ends_of_finite (henv : KeepsMemory env) (h : Finite memory address valType funcs) :
    Ends env memory address valType funcs := by
  induction h with
  | @flat address valType funcs hflat =>
    cases htag : tagAt memory address with
    | none => exact ends_of_noTag htag
    | some tagged =>
      exact ends_of_tag htag (Eventually.of_forall fun _ _ _ =>
        settles_handleFlat (hflat tagged htag))
  | bigInt htag hfunc =>
    exact ends_of_tag htag (Eventually.of_forall fun _ _ _ => settles_handleBigint.mpr hfunc)
  | array htag hisArray hnum _ ih =>
    apply ends_of_array henv htag hisArray hnum
    intro len i hlen hlt hvisit
    exact ih len i hlen hlt (fun j => hvisit.1 j j.zero_le) hvisit.2
  | concat htag _ _ ihFirst ihSecond => exact ends_of_concat henv htag ihFirst ihSecond

end Display

/-- The display of an object returns, with a text or with an error, if and only if it descends from
the object finitely often and has the functions for the big integers that it meets. -/
theorem total_iff_finite {env : HeapEnv T} (henv : KeepsMemory env) {l : Local T}
    {memory : List Byte} (hholds : Holds l memory) (address : UntypedVal) (valType : ValType)
    (funcs : BigintFuncs) :
    Total env l address valType funcs ↔ Finite memory address valType funcs := by
  constructor
  · rintro ⟨depth, h⟩
    exact finite_of_settles henv hholds (h depth (Nat.le_refl _))
  · intro h
    obtain ⟨depth, hends⟩ := eventually_atTop.mp (ends_of_finite henv h)
    exact ⟨depth, fun n hn => hends n hn l hholds⟩

lemma keepsMemory_plainEnv : KeepsMemory plainEnv := fun _ _ _ _ _ => id

lemma holds_memorySession (bytes : List Byte) :
    Holds (memorySession bytes).machine.toLocal bytes :=
  @holds_withBytes Unit (memorySession []) ⟨_, _, rfl, rfl⟩ bytes

/-- An object that the display does not look into. -/
theorem total_iff_finite_region :
    Total plainEnv (memorySession (regionAt 1)).machine.toLocal 1 .f64 .none ↔
      Finite (regionAt 1) 1 .f64 .none :=
  total_iff_finite keepsMemory_plainEnv (holds_memorySession _) 1 .f64 .none

/-- An array of pointers whose first element is the array itself. -/
lemma not_finite_of_self {memory : List Byte} {address : UntypedVal} {valType : ValType}
    {funcs : BigintFuncs} {tagged : Tagged} {len : Nat}
    (htag : tagAt memory address = some tagged) (hisArray : isArray tagged = true)
    (hlen : arrayLen memory address = some (len + 1))
    (hvisit : Visits memory address valType 0 0)
    (hself : element memory address valType 0 = address) :
    ¬ Finite memory address valType funcs := by
  intro h
  induction h with
  | flat hflat =>
    have hnot := hflat tagged htag
    cases tagged with
    | arrayT => cases hnot
    | arrayVarT => cases hnot
    | _ => cases hisArray
  | bigInt htag' _ =>
    cases htag.symm.trans htag'
    cases hisArray
  | concat htag' _ _ _ _ =>
    cases htag.symm.trans htag'
    cases hisArray
  | array _ _ _ _ ih =>
    apply ih (len + 1) 0 hlen (by omega) (fun j => hvisit.1 j j.zero_le) hvisit.2
    all_goals rwa [hself]

/-- An array at the address 1 that contains itself. -/
def selfArray : List Byte := [0, 0, 5, 0, 0, 0, 1, 0, 0, 0, 1, 0, 0, 0]

/-- A concatenation at the address 1 whose first part is a big integer. -/
def bigIntConcat : List Byte :=
  [0, 0, 37, 0, 0, 0, 0, 0, 0, 0, 17, 0, 0, 0, 17, 0, 0, 0, 35, 0, 0, 0]

/-- The display of an array that contains itself does not come to an end, and the display of a
concatenation with a big integer panics, whatever functions there are. -/
theorem display_not_total :
    ¬ Total plainEnv (memorySession selfArray).machine.toLocal 1 .i32 .none ∧
      ∀ depth, displayLocalInHeap plainEnv (depth + 2) 1 .i32 ⟨some 0, some 0, some 0⟩
          (memorySession bigIntConcat).machine.toLocal =
        .error (.stopped .panic) (memorySession bigIntConcat).machine.toLocal := by
  constructor
  · rintro ⟨depth, h⟩
    have hfinite := finite_of_settles keepsMemory_plainEnv (holds_memorySession selfArray)
      (h depth (Nat.le_refl _))
    have hin : ElementIn selfArray 1 .i32 0 := ⟨.i32Load, 4, rfl, rfl, by decide⟩
    have hvisit : Visits selfArray 1 .i32 0 0 := by
      refine ⟨fun k _ hk => ?_, by unfold IsPointer; decide⟩
      obtain rfl : k = 0 := by omega
      exact hin
    exact @not_finite_of_self selfArray 1 .i32 .none .arrayVarT 0 rfl rfl rfl hvisit rfl hfinite
  · intro depth
    rfl

end Debugger

end MotokoDebugger
