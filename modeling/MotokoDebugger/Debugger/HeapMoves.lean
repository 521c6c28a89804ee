import MotokoDebugger.Debugger.HeapLoads
import MotokoDebugger.Executor.Atomic

/-!
# What a display changes

* `moves_displayLocalInHeap`: of what the display of an object can see, only the calls of the
  functions that convert big integers change anything, and those only the store.
-/

namespace MotokoDebugger

open StateExcept Executor

namespace Debugger

variable {T : Type}

/-- The relation holds between the states before and after any number of calls. -/
structure Allows (env : HeapEnv T) (R : Local T → Local T → Prop) : Prop where
  refl (l : Local T) : R l l
  trans (a b c : Local T) : R a b → R b c → R a c
  call (func : Nat) (inputs : List Val) (output : Val) (l : Local T) :
    R l { l with store := (env.call func inputs output l.store).2 }

section Moves

variable {env : HeapEnv T} {R : Local T → Local T → Prop} {memory : List Byte}
  {address : UntypedVal} {valType : ValType} {funcs : BigintFuncs}
  {display : UntypedVal → ValType → BigintFuncs → HeapM T String}

lemma Allows.pure (h : Allows env R) (text : String) : Moves R (pure text : HeapM T String) :=
  Moves.pure h.refl text

lemma Allows.throw (h : Allows env R) (stop : HeapStop) :
    Moves R (throw stop : HeapM T String) :=
  Moves.throw h.refl stop

lemma Allows.bind (h : Allows env R) {α : Type} {x : HeapM T α} {f : α → HeapM T String}
    (hx : Moves R x) (hf : ∀ a, Moves R (f a)) : Moves R (x >>= f) :=
  Moves.bind h.trans hx hf

lemma Allows.readOnly (h : Allows env R) {α : Type} {x : HeapM T α} (hx : ReadOnly x) :
    Moves R x :=
  hx.mono fun l _ heq => heq ▸ h.refl l

lemma readOnly_loadWith (op : LoadOp) (memory : List Byte) (address : UntypedVal)
    (offset : BitVec 32) : ReadOnly (loadWith op memory address offset : HeapM T UntypedVal) := by
  unfold loadWith
  split
  · exact ReadOnly.pure _
  · exact ReadOnly.throw _

lemma readOnly_fetchMemoryBytes : ReadOnly (fetchMemoryBytes : HeapM T (List Byte)) := by
  have hmemory : ReadOnly (HeapM.ofLocal (fetchMemory 0) :
      HeapM T (Option (Nat × MemoryEntity))) := by
    intro l
    have hfetch := readOnly_fetchMemory 0 l
    unfold HeapM.ofLocal
    cases h : fetchMemory 0 l with
    | ok found l' =>
      rw [h] at hfetch
      exact hfetch
    | error stop l' =>
      rw [h] at hfetch
      exact hfetch
  exact hmemory.bind fun _ => ReadOnly.pure _

/-- A load, and then a text. -/
lemma Allows.load (h : Allows env R) (op : LoadOp) (offset : BitVec 32)
    {f : UntypedVal → HeapM T String} (hf : ∀ value, Moves R (f value)) :
    Moves R (loadWith op memory address offset >>= f) :=
  h.bind (h.readOnly (readOnly_loadWith op memory address offset)) hf

lemma moves_orText {x : HeapM T String} (hx : Moves R x) (text : String) :
    Moves R (x.orText text) := by
  intro l
  have hmove := hx l
  unfold HeapM.orText
  split
  · rename_i heq
    rw [heq] at hmove
    exact hmove
  · exact hmove

lemma moves_blobChars (h : Allows env R) (i count : Nat) :
    Moves R (blobChars memory address i count : HeapM T String) := by
  induction count generalizing i with
  | zero => exact h.pure _
  | succ count ih => exact h.load _ _ fun _ => h.bind (ih _) fun _ => h.pure _

lemma moves_callText (h : Allows env R) (func : Nat) (inputs : List Val) (output : Val) :
    Moves R (callText env func inputs output) := by
  intro l
  have hcall := h.call func inputs output l
  unfold callText
  split
  · rename_i heq
    rw [heq] at hcall
    exact hcall
  · rename_i heq
    rw [heq] at hcall
    exact hcall

lemma moves_handleBigint (h : Allows env R) :
    Moves R (handleBigint env address valType funcs) := by
  unfold handleBigint
  split
  · split
    · exact moves_callText h _ _ _
    · exact h.throw _
  · split
    · exact moves_callText h _ _ _
    · exact h.throw _
  · split
    · exact moves_callText h _ _ _
    · exact h.throw _
  · exact h.throw _

lemma moves_displayWasmVal (h : Allows env R)
    (hdisplay : ∀ value, Moves R (display value valType funcs)) (value : UntypedVal)
    (isFloat : Bool) : Moves R (displayWasmVal env display value valType isFloat funcs) := by
  unfold displayWasmVal
  split
  · dsimp only
    split
    · exact h.pure _
    · exact h.pure _
    · exact h.pure _
    · exact h.pure _
    · exact h.throw _
  · exact moves_orText (hdisplay value) _

lemma moves_arrayElements (h : Allows env R)
    (hdisplay : ∀ value, Moves R (display value valType funcs)) (i count : Nat) :
    Moves R (arrayElements env display memory address valType funcs i count) := by
  induction count generalizing i with
  | zero => exact h.pure _
  | succ count ih =>
    rw [arrayElements]
    split
    · exact h.throw _
    · apply h.bind
      · unfold loadFromHeap
        split
        · exact h.readOnly (readOnly_loadWith _ _ _ _)
        · exact h.readOnly (ReadOnly.throw _)
      · intro value
        apply h.bind (moves_displayWasmVal h hdisplay value _)
        exact fun _ => h.bind (ih _) fun _ => h.pure _

lemma moves_handleConcat (h : Allows env R)
    (hdisplay : ∀ value valType funcs, Moves R (display value valType funcs)) :
    Moves R (handleConcat display memory address) := by
  apply h.load
  intro _
  apply h.load
  intro _
  apply h.load
  intro _
  apply h.bind (hdisplay _ _ _)
  intro _
  exact h.bind (hdisplay _ _ _) fun _ => h.pure _

lemma moves_handleTagged (h : Allows env R)
    (hdisplay : ∀ value valType funcs, Moves R (display value valType funcs)) (tagged : Tagged) :
    Moves R (handleTagged env display memory address valType funcs tagged) := by
  have harray : Moves R (handleArrayVarT env display memory address valType funcs) :=
    h.load _ _ fun _ => h.bind (moves_arrayElements h (fun _ => hdisplay _ _ _) _ _) fun _ =>
      h.pure _
  cases tagged with
  | arrayVarT => exact harray
  | arrayT => exact harray
  | bigInt => exact moves_handleBigint h
  | concat => exact moves_handleConcat h hdisplay
  | blobText => exact h.load _ _ fun _ => moves_blobChars h _ _
  | mutBox => exact h.load _ _ fun _ => h.pure _
  | variant => exact h.load _ _ fun _ => h.pure _
  | bits64Float => exact h.load _ _ fun _ => h.pure _
  | bits32Float => exact h.load _ _ fun _ => h.pure _
  | _ => exact h.pure _

/-- A display moves along every relation that the calls allow. -/
theorem moves_displayLocalInHeap (h : Allows env R) (depth : Nat) (address : UntypedVal)
    (valType : ValType) (funcs : BigintFuncs) :
    Moves R (displayLocalInHeap env depth address valType funcs) := by
  induction depth generalizing address valType funcs with
  | zero => exact h.throw _
  | succ depth ih =>
    apply h.bind (h.readOnly readOnly_fetchMemoryBytes)
    intro memory
    apply h.load
    intro tag
    split
    · exact h.throw _
    · exact moves_handleTagged h ih _

end Moves

end Debugger

end MotokoDebugger
