import MotokoDebugger.Debugger.Entry
import MotokoDebugger.Debugger.HeapLoads

/-!
# Scalar values

* `localText_tagged`, `elementText_tagged`: a tagged compact integer, as a local and as an element
  of an array. The shift that removes the tag does not keep the sign.
* `floatsShown_iff`: the bits of a float local for which the display does not look at the memory.
-/

namespace MotokoDebugger

open StateExcept Executor

namespace Debugger

variable {T : Type}

/-- The lowest bit tells scalars from pointers. -/
lemma and_one_eq_zero_iff (value : UntypedVal) : value &&& 1 = 0 ↔ value.toNat % 2 = 0 := by
  rw [← BitVec.toNat_inj, BitVec.toNat_and]
  show value.toNat &&& 1 = 0 ↔ _
  rw [Nat.and_one_is_mod]

/-! ## Compact integers -/

/-- `n` is a compact integer of the word size of the type. -/
def Compact (ty : ValType) (n : Int) : Prop :=
  (ty = .i32 ∧ -2 ^ 30 ≤ n ∧ n < 2 ^ 30) ∨ (ty = .i64 ∧ -2 ^ 62 ≤ n ∧ n < 2 ^ 62)

instance (ty : ValType) (n : Int) : Decidable (Compact ty n) := inferInstanceAs (Decidable (_ ∨ _))

/-- The cell of a tagged compact integer: `n << 1` in two's complement. -/
def taggedScalar (ty : ValType) (n : Int) : UntypedVal :=
  if ty = .i64 then BitVec.ofInt 64 (2 * n) else .ofI32 (BitVec.ofInt 32 (2 * n))

/-- The integer that the display reads off the cell. -/
def untagged (ty : ValType) (n : Int) : Int :=
  if 0 ≤ n then n else if ty = .i64 then n + 2 ^ 63 else n + 2 ^ 31

lemma toNat_taggedScalar_i32 {n : Int} (h : Compact .i32 n) :
    ((taggedScalar .i32 n).toNat : Int) = 2 * untagged .i32 n := by
  have hrange : -2 ^ 30 ≤ n ∧ n < 2 ^ 30 := by simpa [Compact] using h
  have hcell : (taggedScalar .i32 n).toNat = (BitVec.ofInt 32 (2 * n)).toNat := by
    simp [taggedScalar, UntypedVal.ofI32, BitVec.toNat_setWidth]
    omega
  rw [hcell, BitVec.toNat_ofInt]
  unfold untagged
  split <;> simp <;> omega

lemma toNat_taggedScalar_i64 {n : Int} (h : Compact .i64 n) :
    ((taggedScalar .i64 n).toNat : Int) = 2 * untagged .i64 n := by
  have hrange : -2 ^ 62 ≤ n ∧ n < 2 ^ 62 := by simpa [Compact] using h
  rw [taggedScalar, if_pos rfl, BitVec.toNat_ofInt]
  unfold untagged
  split <;> simp <;> omega

/-- The tag of a scalar is a clear bit. -/
lemma even_taggedScalar {ty : ValType} {n : Int} (h : Compact ty n) :
    taggedScalar ty n &&& 1 = 0 := by
  rw [and_one_eq_zero_iff]
  have hcell : ((taggedScalar ty n).toNat : Int) = 2 * untagged ty n := by
    rcases h with ⟨rfl, hrange⟩ | ⟨rfl, hrange⟩
    · exact toNat_taggedScalar_i32 (.inl ⟨rfl, hrange⟩)
    · exact toNat_taggedScalar_i64 (.inr ⟨rfl, hrange⟩)
  omega

lemma toInt_untagged_i32 {n : Int} (h : Compact .i32 n) :
    (UntypedVal.toI32 (taggedScalar .i32 n >>> 1)).toInt = untagged .i32 n := by
  have hcell := toNat_taggedScalar_i32 h
  have hrange : -2 ^ 30 ≤ n ∧ n < 2 ^ 30 := by simpa [Compact] using h
  have hbound : 0 ≤ untagged .i32 n ∧ untagged .i32 n < 2 ^ 31 := by
    unfold untagged
    split <;> simp <;> omega
  have hnat : (UntypedVal.toI32 (taggedScalar .i32 n >>> 1)).toNat =
      (taggedScalar .i32 n).toNat / 2 := by
    rw [UntypedVal.toI32, BitVec.truncate_eq_setWidth, BitVec.toNat_setWidth,
      BitVec.toNat_ushiftRight, Nat.shiftRight_one]
    omega
  -- the shift leaves the sign bit clear
  rw [BitVec.toInt_eq_toNat_cond, hnat]
  split <;> omega

lemma toInt_untagged_i64 {n : Int} (h : Compact .i64 n) :
    (taggedScalar .i64 n >>> 1).toInt = untagged .i64 n := by
  have hcell := toNat_taggedScalar_i64 h
  have hrange : -2 ^ 62 ≤ n ∧ n < 2 ^ 62 := by simpa [Compact] using h
  have hbound : 0 ≤ untagged .i64 n ∧ untagged .i64 n < 2 ^ 63 := by
    unfold untagged
    split <;> simp <;> omega
  have hnat : (taggedScalar .i64 n >>> 1).toNat = (taggedScalar .i64 n).toNat / 2 := by
    rw [BitVec.toNat_ushiftRight, Nat.shiftRight_one]
  rw [BitVec.toInt_eq_toNat_cond, hnat]
  split <;> omega

section Texts

variable {env : HeapEnv T} {ty : ValType} {n : Int}

/-- A tagged integer as a local. -/
lemma localText_tagged (h : Compact ty n) (depth : Nat) (s : Session T) :
    displayValtypeWithValue env depth ty (taggedScalar ty n) s =
      .ok (some (ty.debug ++ "(" ++ toString (untagged ty n) ++ ")")) s := by
  rw [displayValtypeWithValue, if_pos (even_taggedScalar h)]
  rcases h with ⟨rfl, hrange⟩ | ⟨rfl, hrange⟩
  · have hint := toInt_untagged_i32 (.inl ⟨rfl, hrange⟩)
    show EStateM.Result.ok (some ("I32(" ++ toString _ ++ ")")) s = _
    rw [hint]
    rfl
  · have hint := toInt_untagged_i64 (.inr ⟨rfl, hrange⟩)
    show EStateM.Result.ok (some ("I64(" ++ toString _ ++ ")")) s = _
    rw [hint]
    rfl

/-- A tagged integer as an element of an array. -/
lemma elementText_tagged (h : Compact ty n)
    (display : UntypedVal → ValType → BigintFuncs → HeapM T String) (funcs : BigintFuncs)
    (l : Local T) :
    displayWasmVal env display (taggedScalar ty n) ty ty.isFloat funcs l =
      .ok (toString (untagged ty n)) l := by
  have heven := even_taggedScalar h
  rcases h with ⟨rfl, hrange⟩ | ⟨rfl, hrange⟩
  · have hint := toInt_untagged_i32 (.inl ⟨rfl, hrange⟩)
    rw [displayWasmVal, if_pos ⟨heven, rfl⟩]
    show EStateM.Result.ok (toString _) l = _
    rw [hint]
  · have hint := toInt_untagged_i64 (.inr ⟨rfl, hrange⟩)
    rw [displayWasmVal, if_pos ⟨heven, rfl⟩]
    show EStateM.Result.ok (toString _) l = _
    rw [hint]

/-- A compact integer that is not negative is shown as its decimal: with its type as a local, bare
as an element of an array. -/
theorem compact_shown (h : Compact ty n) (hn : 0 ≤ n) (depth : Nat) (s : Session T)
    (display : UntypedVal → ValType → BigintFuncs → HeapM T String) (funcs : BigintFuncs)
    (l : Local T) :
    displayValtypeWithValue env depth ty (taggedScalar ty n) s =
        .ok (some (ty.debug ++ "(" ++ toString n ++ ")")) s ∧
      displayWasmVal env display (taggedScalar ty n) ty ty.isFloat funcs l =
        .ok (toString n) l := by
  have huntagged : untagged ty n = n := if_pos hn
  constructor
  · rw [localText_tagged h, huntagged]
  · rw [elementText_tagged h, huntagged]

end Texts

/-- The texts of a few numbers, and an environment without functions to call. -/
def plainEnv : HeapEnv Unit where
  call _ _ output store := (.ok output, store)
  texts :=
    { debugF32 := fun _ => "0.0"
      displayF32 := fun _ => "0"
      debugF64 := fun bits => if bits = 1 then "5e-324" else "0.0"
      displayF64 := fun _ => "0"
      debugRef := fun ty _ => ty.debug }

/-- A debugger whose program has just one memory, with these bytes. -/
def memorySession (bytes : List Byte) : Session Unit :=
  let session := launched (Launch.ofStore (Store.ofFuncs []))
  { session with
    executor := .live
    machine :=
      { session.machine with
        cache := ⟨0, some ⟨0, bytes.length⟩, none⟩
        store := { session.machine.store with memories := [⟨bytes, 0, none, none⟩] } } }

theorem compact_shown_five :
    displayValtypeWithValue plainEnv 0 .i32 (taggedScalar .i32 5) (memorySession []) =
        .ok (some "I32(5)") (memorySession []) ∧
      displayWasmVal plainEnv (fun _ _ _ => HeapM.panic) (taggedScalar .i32 5) .i32 false .none
          (memorySession []).machine.toLocal =
        .ok "5" (memorySession []).machine.toLocal :=
  compact_shown (by decide) (by decide) 0 (memorySession []) (fun _ _ _ => HeapM.panic) .none
    (memorySession []).machine.toLocal

/-- The two texts of 5 differ, and those of -1 do not say -1. -/
theorem compact_texts_differ :
    displayValtypeWithValue plainEnv 0 .i32 (taggedScalar .i32 5) (memorySession []) =
        .ok (some "I32(5)") (memorySession []) ∧
      displayWasmVal plainEnv (fun _ _ _ => HeapM.panic) (taggedScalar .i32 5) .i32 false .none
          (memorySession []).machine.toLocal =
        .ok "5" (memorySession []).machine.toLocal ∧
      displayValtypeWithValue plainEnv 0 .i32 (taggedScalar .i32 (-1)) (memorySession []) =
        .ok (some "I32(2147483647)") (memorySession []) ∧
      displayWasmVal plainEnv (fun _ _ _ => HeapM.panic) (taggedScalar .i32 (-1)) .i32 false .none
          (memorySession []).machine.toLocal =
        .ok "2147483647" (memorySession []).machine.toLocal := by
  have hfive : Compact .i32 5 := by decide
  have hminus : Compact .i32 (-1) := by decide
  refine ⟨?_, ?_, ?_, ?_⟩
  · exact localText_tagged hfive 0 (memorySession [])
  · exact elementText_tagged hfive _ .none (memorySession []).machine.toLocal
  · exact localText_tagged hminus 0 (memorySession [])
  · exact elementText_tagged hminus _ .none (memorySession []).machine.toLocal

/-! ## Floats -/

/-- The executor of the session has a default memory. -/
def HasMemory (s : Session T) : Prop :=
  ∃ cached entity, s.machine.cache.memory = some cached ∧
    s.machine.store.memories[cached.memory]? = some entity

/-- The session with other bytes in the default memory. -/
def withBytes (bytes : List Byte) (s : Session T) : Session T :=
  match s.machine.cache.memory with
  | none => s
  | some cached =>
    { s with machine := { s.machine with
        cache := { s.machine.cache with memory := some ⟨cached.memory, bytes.length⟩ }
        store := { s.machine.store with
          memories := s.machine.store.memories.modify cached.memory
            fun entity => { entity with bytes } } } }

lemma withBytes_executor (bytes : List Byte) (s : Session T) :
    (withBytes bytes s).executor = s.executor := by
  unfold withBytes
  split <;> rfl

lemma holds_withBytes {s : Session T} (h : HasMemory s) (bytes : List Byte) :
    Holds (withBytes bytes s).machine.toLocal bytes := by
  obtain ⟨cached, entity, hcached, hentity⟩ := h
  have hget : (s.machine.store.memories.modify cached.memory
      fun entity => { entity with bytes })[cached.memory]? = some { entity with bytes } := by
    rw [List.getElem?_modify_eq, hentity]
    rfl
  have hfetched : (fetchMemory 0 : LocalM T _) (withBytes bytes s).machine.toLocal =
      .ok (some (cached.memory, { entity with bytes })) (withBytes bytes s).machine.toLocal := by
    simp only [fetchMemory, fetchDefaultMemory, get_bind, withBytes, hcached, Machine.toLocal,
      hget, assume, pure_bind, if_true]
    rfl
  unfold Holds fetchMemoryBytes HeapM.ofLocal
  simp [hfetched, bytesOf, bind, EStateM.bind, pure, EStateM.pure]

lemma lookupFuncByIndex_withBytes (bytes : List Byte) (s : Session T) :
    lookupFuncByIndex (withBytes bytes s) = lookupFuncByIndex s := by
  unfold withBytes
  split <;> rfl

/-- The lookups do not depend on the memory. -/
lemma commutes_lookupBigintFuncs (bytes : List Byte) :
    CommutesUpTo (fun _ => False) (withBytes bytes)
      (lookupBigintFuncs : DbgM T BigintFuncs) := by
  have hinst : ∀ s : Session T, (withBytes bytes s).inst = s.inst := by
    intro s
    unfold withBytes
    split <;> rfl
  have hname : ∀ name, CommutesUpTo (fun _ => False) (withBytes bytes)
      (lookupFuncByName name : DbgM T (Option Nat)) :=
    commutes_lookupFuncByName hinst (lookupFuncByIndex_withBytes bytes)
  exact (hname _).bind fun _ => (hname _).bind fun _ => (hname _).bind fun _ => .pure _

lemma readOnly_lookupBigintFuncs : ReadOnly (lookupBigintFuncs : DbgM T BigintFuncs) :=
  (readOnly_lookupFuncByName _).bind fun _ => (readOnly_lookupFuncByName _).bind fun _ =>
    (readOnly_lookupFuncByName _).bind fun _ => ReadOnly.pure _

/-- The lookups of the functions that the display of a pointer is given do not panic. -/
def FindsBigintFuncs (s : Session T) : Prop := ∃ funcs, lookupBigintFuncs s = .ok funcs s

section Floats

variable {env : HeapEnv T} {ty : ValType} {value : UntypedVal} {s : Session T}

/-- A value with a set lowest bit. -/
lemma displayValtypeWithValue_odd (hlive : s.executor = .live) (hnum : ty.isNum = true)
    (hodd : value.toNat % 2 ≠ 0) (depth : Nat) :
    displayValtypeWithValue env depth ty value s = (do
      let funcs ← lookupBigintFuncs
      answerDisplay (displayLocalInHeap env depth value ty funcs)
        (displayValInStack env.texts ty value 0)) s := by
  have htag : ¬ value &&& 1 = 0 := mt (and_one_eq_zero_iff value).mp hodd
  have hrequire : requireExecutor s = .ok () s := requireExecutor_eq_ok.mpr ⟨hlive, rfl⟩
  rw [displayValtypeWithValue, if_neg htag, if_pos hnum, bind_ok hrequire]

lemma isNum_of_isFloat (h : ty.isFloat = true) : ty.isNum = true := by
  cases ty <;> first | rfl | cases h

/-- The display of the bits of a float, shifted or not. -/
lemma displayValInStack_float (h : ty.isFloat = true) (texts : Texts) (shr : Nat) :
    displayValInStack texts ty value shr = texts.val ⟨ty, value⟩ := by
  cases ty <;> first | rfl | cases h

/-- An object that the display does not look into. -/
def regionAt (address : Nat) : List Byte := List.replicate (address + 1) 0 ++ [39, 0, 0, 0]

lemma tagAt_regionAt (h : value.toI32.toNat + 5 ≤ 2 ^ 32) :
    tagAt (regionAt value.toI32.toNat) value = some .region := by
  have hlen : (regionAt value.toI32.toNat).length = value.toI32.toNat + 5 := by
    rw [regionAt, List.length_append, List.length_replicate]
    rfl
  have hbounds : InBounds .i32Load (regionAt value.toI32.toNat) value TAG_OFFSET := by
    show value.toI32.toNat + 1 < 2 ^ 32 ∧ value.toI32.toNat + 1 + 4 ≤ _
    omega
  have hbytes : ((regionAt value.toI32.toNat).drop (value.toI32.toNat + 1)).take 4 =
      [39, 0, 0, 0] := by
    rw [regionAt, List.drop_left' List.length_replicate]
    rfl
  have hvalue : valueAt .i32Load (regionAt value.toI32.toNat) value TAG_OFFSET = 39 := by
    show LoadOp.extend .i32Load (fromLeBytes (List.take 4 (List.drop (value.toI32.toNat + 1) _))) = _
    rw [hbytes]
    rfl
  rw [tagAt, if_pos hbounds, hvalue]
  rfl

/-- The text of a float is not that of an object. -/
lemma val_ne_heapAddress (h : ty.isFloat = true) (texts : Texts) (text : String) :
    texts.val ⟨ty, value⟩ ≠ "HeapAddress: " ++ text := by
  intro heq
  have hhead := congrArg (fun text : String => text.toList.head?) heq
  cases ty with
  | f32 =>
    dsimp only [Texts.val] at hhead
    simp [String.toList_append] at hhead
  | f64 =>
    dsimp only [Texts.val] at hhead
    simp [String.toList_append] at hhead
  | _ => cases h

/-- The debugger's answer, where the display has left the executor and the store alone. -/
lemma answerDisplay_ok {x : HeapM T String} {shown : String} (text : String)
    (h : x s.machine.toLocal = .ok shown s.machine.toLocal) :
    answerDisplay x text s = .ok (some shown) s := by
  unfold answerDisplay
  rw [h]
  simp

lemma answerDisplay_fault {x : HeapM T String} {error : Error} (text : String)
    (h : x s.machine.toLocal = .error (.stopped (.fault error)) s.machine.toLocal) :
    answerDisplay x text s = .ok (some text) s := by
  unfold answerDisplay
  rw [h]
  simp

/-- Looking the functions up, whatever is in the memory. -/
lemma lookupBigintFuncs_withBytes (bytes : List Byte) :
    lookupBigintFuncs (withBytes bytes s) = mapState (withBytes bytes) (lookupBigintFuncs s) :=
  (commutes_lookupBigintFuncs bytes).eq fun _ _ _ => id

/-- The executor, whatever is in the memory. -/
lemma live_withBytes (hlive : s.executor = .live) (bytes : List Byte) :
    (withBytes bytes s).executor = .live :=
  (withBytes_executor bytes s).trans hlive

/-- Odd bits are displayed only where the lookups do not panic. -/
lemma findsBigintFuncs_of_display (hlive : s.executor = .live) (hfloat : ty.isFloat = true)
    (hodd : value.toNat % 2 ≠ 0) {bytes : List Byte} {depth : Nat} {shown : Option String}
    {s' : Session T}
    (h : displayValtypeWithValue env depth ty value (withBytes bytes s) = .ok shown s') :
    FindsBigintFuncs s := by
  rw [displayValtypeWithValue_odd (live_withBytes hlive bytes) (isNum_of_isFloat hfloat) hodd] at h
  obtain ⟨funcs, _, hfuncs, -⟩ := bind_eq_ok.mp h
  rw [lookupBigintFuncs_withBytes] at hfuncs
  cases hlookup : lookupBigintFuncs s with
  | ok funcs' s'' =>
    have hsame : s'' = s := readOnly_lookupBigintFuncs.of_ok hlookup
    exact ⟨funcs', by rw [hlookup, hsame]⟩
  | error stop s'' =>
    rw [hlookup] at hfuncs
    cases hfuncs

/-- An object at the address of odd bits is shown in their place. -/
lemma display_regionAt (hlive : s.executor = .live) (hmemory : HasMemory s)
    (hfloat : ty.isFloat = true) (hodd : value.toNat % 2 ≠ 0) (hfinds : FindsBigintFuncs s)
    (hlow : value.toI32.toNat + 5 ≤ 2 ^ 32) (depth : Nat) :
    displayValtypeWithValue env (depth + 1) ty value (withBytes (regionAt value.toI32.toNat) s) ≠
      .ok (some (env.texts.val ⟨ty, value⟩)) (withBytes (regionAt value.toI32.toNat) s) := by
  obtain ⟨funcs, hfuncs⟩ := hfinds
  intro h
  have hfuncs' := @lookupBigintFuncs_withBytes T s (regionAt value.toI32.toNat)
  rw [hfuncs, mapState_ok] at hfuncs'
  have hobject := @display_of_tag T env _ _ ty funcs _ _ (holds_withBytes hmemory _)
    (tagAt_regionAt hlow) depth
  rw [displayValtypeWithValue_odd (live_withBytes hlive _) (isNum_of_isFloat hfloat) hodd,
    bind_ok hfuncs', answerDisplay_ok _ hobject] at h
  injection h with htext
  have hsame := (Option.some.inj htext).symm
  simp only [String.append_assoc] at hsame
  exact val_ne_heapAddress hfloat env.texts _ hsame

lemma display_even (hfloat : ty.isFloat = true) (heven : value.toNat % 2 = 0) (depth : Nat) :
    displayValtypeWithValue env depth ty value s = .ok (some (env.texts.val ⟨ty, value⟩)) s := by
  have htag : value &&& 1 = 0 := (and_one_eq_zero_iff value).mpr heven
  rw [displayValtypeWithValue, if_pos htag, displayValInStack_float hfloat]
  rfl

/-- At the highest addresses there is no object, in a memory of any size. -/
lemma display_high (hlive : s.executor = .live) (hmemory : HasMemory s)
    (hfloat : ty.isFloat = true) (hodd : value.toNat % 2 ≠ 0) (hfinds : FindsBigintFuncs s)
    (hhigh : 2 ^ 32 < value.toI32.toNat + 5) {bytes : List Byte} (hlen : bytes.length ≤ 2 ^ 32)
    (depth : Nat) :
    displayValtypeWithValue env (depth + 1) ty value (withBytes bytes s) =
      .ok (some (env.texts.val ⟨ty, value⟩)) (withBytes bytes s) := by
  obtain ⟨funcs, hfuncs⟩ := hfinds
  have hfuncs' := @lookupBigintFuncs_withBytes T s bytes
  rw [hfuncs, mapState_ok] at hfuncs'
  -- the header would end behind the last address
  have hnone : tagAt bytes value = none := by
    apply if_neg
    intro hbounds
    have hend : value.toI32.toNat + 1 + 4 ≤ bytes.length := hbounds.2
    omega
  obtain ⟨text, herror⟩ := @display_of_noTag T env _ _ ty funcs _
    (holds_withBytes hmemory bytes) hnone depth
  rw [displayValtypeWithValue_odd (live_withBytes hlive bytes) (isNum_of_isFloat hfloat) hodd,
    bind_ok hfuncs', answerDisplay_fault _ herror, displayValInStack_float hfloat]

/-- The display of a float local is that of its bits, whatever is in the memory, if and only if
the bits are even, or so high that no object is there and the lookups do not panic. -/
theorem floatsShown_iff (hlive : s.executor = .live) (hmemory : HasMemory s)
    (hfloat : ty.isFloat = true) :
    (∀ bytes : List Byte, bytes.length ≤ 2 ^ 32 → ∀ depth,
        displayValtypeWithValue env (depth + 1) ty value (withBytes bytes s) =
          .ok (some (env.texts.val ⟨ty, value⟩)) (withBytes bytes s)) ↔
      value.toNat % 2 = 0 ∨ 2 ^ 32 < value.toI32.toNat + 5 ∧ FindsBigintFuncs s := by
  constructor
  · intro hshown
    by_contra hcond
    have hodd : value.toNat % 2 ≠ 0 := fun heven => hcond (.inl heven)
    have hfinds := findsBigintFuncs_of_display hlive hfloat hodd (hshown [] (by simp) 0)
    have hlow : value.toI32.toNat + 5 ≤ 2 ^ 32 := by
      by_contra hhigh
      exact hcond (.inr ⟨by omega, hfinds⟩)
    have hlen : (regionAt value.toI32.toNat).length ≤ 2 ^ 32 := by
      rw [regionAt, List.length_append, List.length_replicate]
      exact hlow
    exact display_regionAt hlive hmemory hfloat hodd hfinds hlow 0 (hshown _ hlen 0)
  · intro hcond bytes hlen depth
    by_cases heven : value.toNat % 2 = 0
    · exact display_even hfloat heven _
    · obtain ⟨hhigh, hfinds⟩ := hcond.resolve_left heven
      exact display_high hlive hmemory hfloat heven hfinds hhigh hlen depth

/-- The float with the lowest bit, in a program with a memory. -/
theorem floatsShown_iff_lowest :
    (∀ bytes : List Byte, bytes.length ≤ 2 ^ 32 → ∀ depth,
        displayValtypeWithValue plainEnv (depth + 1) .f64 1 (withBytes bytes (memorySession [])) =
          .ok (some (plainEnv.texts.val ⟨.f64, 1⟩)) (withBytes bytes (memorySession []))) ↔
      (1 : UntypedVal).toNat % 2 = 0 ∨ 2 ^ 32 < (UntypedVal.toI32 1).toNat + 5 ∧
        FindsBigintFuncs (memorySession []) :=
  floatsShown_iff rfl ⟨_, _, rfl, rfl⟩ rfl

/-- With an object at the address 1, the least positive float is shown as that object. -/
theorem float_shown_as_object :
    displayValtypeWithValue plainEnv 1 .f64 1 (memorySession (regionAt 1)) =
        .ok (some "HeapAddress: 1, tagged: Region, F64") (memorySession (regionAt 1)) ∧
      displayValtypeWithValue plainEnv 1 .f64 1 (memorySession []) =
        .ok (some "F64(5e-324)") (memorySession []) :=
  ⟨rfl, rfl⟩

end Floats

end Debugger

end MotokoDebugger
