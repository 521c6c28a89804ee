import MotokoDebugger.Debugger.Heap

/-!
# Loads from the heap

* `InBounds`, `valueAt`: a load of the display, as a function of the bytes of the memory.
* `tagAt`: the tag of the object at an address.
* `display_of_tag`, `display_of_noTag`: the display goes by the tag, and fails without one.
-/

namespace MotokoDebugger

open StateExcept Executor

namespace Debugger

variable {T : Type}

/-- The default memory of the executor has these bytes. -/
def Holds (l : Local T) (memory : List Byte) : Prop := fetchMemoryBytes l = .ok memory l

/-- The bytes that a load reads are in the memory. -/
def InBounds (op : LoadOp) (memory : List Byte) (address : UntypedVal) (offset : BitVec 32) :
    Prop :=
  address.toI32.toNat + offset.toNat < 2 ^ 32 ∧
    address.toI32.toNat + offset.toNat + op.width ≤ memory.length

instance (op : LoadOp) (memory : List Byte) (address : UntypedVal) (offset : BitVec 32) :
    Decidable (InBounds op memory address offset) :=
  inferInstanceAs (Decidable (_ ∧ _))

/-- The value that a load yields. -/
def valueAt (op : LoadOp) (memory : List Byte) (address : UntypedVal) (offset : BitVec 32) :
    UntypedVal :=
  op.extend (fromLeBytes ((memory.drop (address.toI32.toNat + offset.toNat)).take op.width))

section Loads

variable {op : LoadOp} {memory : List Byte} {address : UntypedVal} {offset : BitVec 32}

lemma eval_of_inBounds (h : InBounds op memory address offset) :
    op.eval memory address offset = .ok (valueAt op memory address offset) := by
  obtain ⟨haddress, hbytes⟩ := h
  rw [LoadOp.eval, effectiveAddress, if_pos haddress]
  show (loadInto memory _ op.width >>= fun buffer => pure (op.extend (fromLeBytes buffer))) = _
  rw [loadInto, if_pos hbytes]
  rfl

lemma eval_of_not_inBounds (h : ¬ InBounds op memory address offset) :
    op.eval memory address offset = .error .memoryOutOfBounds := by
  rw [LoadOp.eval, effectiveAddress]
  by_cases haddress : address.toI32.toNat + offset.toNat < 2 ^ 32
  · have hbytes : ¬ address.toI32.toNat + offset.toNat + op.width ≤ memory.length :=
      fun hbytes => h ⟨haddress, hbytes⟩
    rw [if_pos haddress]
    show (loadInto memory _ op.width >>= fun buffer => pure (op.extend (fromLeBytes buffer))) = _
    rw [loadInto, if_neg hbytes]
    rfl
  · rw [if_neg haddress]
    rfl

/-- The error of a load. -/
abbrev outOfBounds : HeapStop := .stopped (.fault (.message "MemoryOutOfBounds"))

lemma loadWith_of_inBounds (h : InBounds op memory address offset) (l : Local T) :
    loadWith op memory address offset l = .ok (valueAt op memory address offset) l := by
  rw [loadWith, eval_of_inBounds h]
  rfl

lemma loadWith_of_not_inBounds (h : ¬ InBounds op memory address offset) (l : Local T) :
    loadWith op memory address offset l = .error outOfBounds l := by
  rw [loadWith, eval_of_not_inBounds h]
  rfl

end Loads

/-- The tag of the object at an address, if there is one. -/
def tagAt (memory : List Byte) (address : UntypedVal) : Option Tagged :=
  if InBounds .i32Load memory address TAG_OFFSET then
    (Tagged.fromU64 (valueAt .i32Load memory address TAG_OFFSET).toNat).toOption
  else none

section Display

variable {env : HeapEnv T} {memory : List Byte} {address : UntypedVal} {valType : ValType}
  {funcs : BigintFuncs} {l : Local T}

/-- The display of an object is that of its handler. -/
theorem display_of_tag {tagged : Tagged} (hholds : Holds l memory)
    (htag : tagAt memory address = some tagged) (depth : Nat) :
    displayLocalInHeap env (depth + 1) address valType funcs l =
      handleTagged env (displayLocalInHeap env depth) memory address valType funcs tagged l := by
  unfold tagAt at htag
  split at htag
  case isFalse => cases htag
  case isTrue hbounds =>
    rw [displayLocalInHeap, bind_ok hholds, bind_ok (loadWith_of_inBounds hbounds l)]
    cases hfrom : Tagged.fromU64 (valueAt .i32Load memory address TAG_OFFSET).toNat with
    | error text =>
      rw [hfrom] at htag
      cases htag
    | ok tagged' =>
      rw [hfrom] at htag
      cases htag
      rfl

/-- An address without an object. -/
theorem display_of_noTag (hholds : Holds l memory) (htag : tagAt memory address = none)
    (depth : Nat) :
    ∃ text, displayLocalInHeap env (depth + 1) address valType funcs l =
      .error (.stopped (.fault (.message text))) l := by
  unfold tagAt at htag
  split at htag
  case isTrue hbounds =>
    cases hfrom : Tagged.fromU64 (valueAt .i32Load memory address TAG_OFFSET).toNat with
    | error text =>
      refine ⟨text, ?_⟩
      rw [displayLocalInHeap, bind_ok hholds, bind_ok (loadWith_of_inBounds hbounds l), hfrom]
      rfl
    | ok tagged =>
      rw [hfrom] at htag
      cases htag
  case isFalse hbounds =>
    refine ⟨"MemoryOutOfBounds", ?_⟩
    rw [displayLocalInHeap, bind_ok hholds, bind_error (loadWith_of_not_inBounds hbounds l)]

end Display

end Debugger

end MotokoDebugger
