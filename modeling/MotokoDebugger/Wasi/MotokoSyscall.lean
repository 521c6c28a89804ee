import MotokoDebugger.Executor.State
import MotokoDebugger.Lib.Utf8

/-!
# Messages of a canister

`wasi/src/sync/snapshots/motoko_syscall.rs`: the system calls `ic0.debug_print` and `ic0.trap`,
which print a message out of the memory of the canister.

* `debugPrint`, `trap`: the two calls. `callSyscall`: what the linker puts around them.
* `messages_printed`: what they do with a message whose part up to their limit is in the memory.
-/

namespace MotokoDebugger

namespace Wasi

open StateExcept

/-- What is printed: a message, or for a trap the outcome of its validation, where an error is
given by the bytes that are not valid. -/
inductive Printed where
  | debugPrint (message : String)
  | trap (message : Except (List Byte) String)
deriving DecidableEq

/-- Computations on what has been printed so far. -/
abbrev HostM := EStateM Stop (List Printed)

/-- `println!`. -/
def println (line : Printed) : HostM Unit := modify (· ++ [line])

/-- `&memory[src..src + size]`. -/
def slice (memory : List Byte) (src size : Nat) : HostM (List Byte) :=
  if src + size ≤ memory.length then pure ((memory.drop src).take size) else throw .panic

/-- `std::str::from_utf8`. -/
def fromUtf8 (bytes : List Byte) : Except (List Byte) String :=
  match Utf8.decode bytes with
  | some text => .ok text
  | none => .error bytes

/-- `MAX_DEBUG_MESSAGE_SIZE`. -/
def maxDebugMessageSize : Nat := 32 * 1024

/-- `MAX_ERROR_MESSAGE_SIZE`. -/
def maxErrorMessageSize : Nat := 16 * 1024

/-- `MotokoSyscall::debug_print`; `describe` is the text of a `Utf8Error`. -/
def debugPrint (describe : List Byte → String) (memory : List Byte) (src size : BitVec 32) :
    HostM Unit := do
  let bytes ← slice memory src.toNat (min size.toNat maxDebugMessageSize)
  match fromUtf8 bytes with
  | .ok result => println (.debugPrint result)
  | .error bytes => throw (.fault (.message (describe bytes)))

/-- `MotokoSyscall::trap`. -/
def trap (memory : List Byte) (str len : BitVec 32) : HostM Unit := do
  let bytes ← slice memory str.toNat (min len.toNat maxErrorMessageSize)
  println (.trap (fromUtf8 bytes))

/-- `add_funcs_to_linker!`: the call gets the bytes of the exported memory `mem`, if there is one,
and every error of the call becomes another one. -/
def callSyscall (fname : String) (call : List Byte → HostM Unit) (mem : Option (List Byte)) :
    HostM Unit := fun printed =>
  match mem with
  | none =>
    .error (.fault (.message ("missing required WASI memory export in ic0::" ++ fname))) printed
  | some memory =>
    match call memory printed with
    | .ok result printed => .ok result printed
    | .error (.fault _) printed => .error (.fault (.message "error")) printed
    | .error stop printed => .error stop printed

/-- `ic0.debug_print`. -/
def ic0DebugPrint (describe : List Byte → String) (mem : Option (List Byte)) (src size : BitVec 32) :
    HostM Unit :=
  callSyscall "debug_print" (debugPrint describe · src size) mem

/-- `ic0.trap`. -/
def ic0Trap (mem : Option (List Byte)) (str len : BitVec 32) : HostM Unit :=
  callSyscall "trap" (trap · str len) mem

/-! ## Messages -/

section Messages

variable {describe : List Byte → String} {memory : List Byte} {src len : BitVec 32}
  {printed : List Printed}

/-- The bytes of a message up to a limit. -/
def messageBytes (memory : List Byte) (src len : BitVec 32) (limit : Nat) : List Byte :=
  (memory.drop src.toNat).take (min len.toNat limit)

/-- A message that is read is printed, and is an error if it is not valid. -/
lemma ic0DebugPrint_eq (hin : src.toNat + min len.toNat maxDebugMessageSize ≤ memory.length) :
    ic0DebugPrint describe (some memory) src len printed =
      match Utf8.decode (messageBytes memory src len maxDebugMessageSize) with
      | some text => .ok () (printed ++ [.debugPrint text])
      | none => .error (.fault (.message "error")) printed := by
  have hslice : slice memory src.toNat (min len.toNat maxDebugMessageSize) =
      pure (messageBytes memory src len maxDebugMessageSize) := if_pos hin
  rw [ic0DebugPrint, callSyscall, debugPrint, hslice, pure_bind, fromUtf8]
  cases Utf8.decode (messageBytes memory src len maxDebugMessageSize) <;> rfl

/-- What is printed is the part of the message up to the limit. -/
lemma encode_printed (hin : src.toNat + min len.toNat maxDebugMessageSize ≤ memory.length)
    {text : String} (h : ic0DebugPrint describe (some memory) src len printed =
      .ok () (printed ++ [.debugPrint text])) :
    Utf8.encode text = messageBytes memory src len maxDebugMessageSize := by
  rw [ic0DebugPrint_eq hin] at h
  rw [← Utf8.decode_eq_some]
  cases hdecode : Utf8.decode (messageBytes memory src len maxDebugMessageSize) with
  | none =>
    rw [hdecode] at h
    cases h
  | some text' =>
    rw [hdecode] at h
    simpa using h

/-- A trap is printed whether it is valid or not. -/
lemma ic0Trap_eq (hin : src.toNat + min len.toNat maxErrorMessageSize ≤ memory.length) :
    ic0Trap (some memory) src len printed =
      .ok () (printed ++ [.trap (fromUtf8 (messageBytes memory src len maxErrorMessageSize))]) := by
  have hslice : slice memory src.toNat (min len.toNat maxErrorMessageSize) =
      pure (messageBytes memory src len maxErrorMessageSize) := if_pos hin
  rw [ic0Trap, callSyscall, trap, hslice, pure_bind]
  rfl

/-- A range that ends behind the memory panics. -/
lemma ic0DebugPrint_panics (hout : memory.length < src.toNat + min len.toNat maxDebugMessageSize) :
    ic0DebugPrint describe (some memory) src len printed = .error .panic printed := by
  have hslice : slice memory src.toNat (min len.toNat maxDebugMessageSize) = throw .panic :=
    if_neg (Nat.not_le.mpr hout)
  rw [ic0DebugPrint, callSyscall, debugPrint, hslice]
  rfl

/-- The text is in the memory at the given place. -/
def MessageAt (memory : List Byte) (src len : BitVec 32) (text : String) : Prop :=
  src.toNat + len.toNat ≤ memory.length ∧
    (memory.drop src.toNat).take len.toNat = Utf8.encode text

/-- Where the part of a message up to the limit of a call is in the memory, `debug_print` prints
that part, or fails if it is not valid, and `trap` prints it. So `debug_print` prints all of a text
that is no longer than its limit. -/
theorem messages_printed (describe : List Byte → String) (memory : List Byte) (src len : BitVec 32)
    (printed : List Printed) :
    (src.toNat + min len.toNat maxDebugMessageSize ≤ memory.length →
      ic0DebugPrint describe (some memory) src len printed =
        match Utf8.decode (messageBytes memory src len maxDebugMessageSize) with
        | some text => .ok () (printed ++ [.debugPrint text])
        | none => .error (.fault (.message "error")) printed) ∧
    (src.toNat + min len.toNat maxErrorMessageSize ≤ memory.length →
      ic0Trap (some memory) src len printed =
        .ok () (printed ++ [.trap (fromUtf8 (messageBytes memory src len maxErrorMessageSize))])) ∧
    ∀ text, MessageAt memory src len text → len.toNat ≤ maxDebugMessageSize →
      ic0DebugPrint describe (some memory) src len printed =
        .ok () (printed ++ [.debugPrint text]) := by
  refine ⟨ic0DebugPrint_eq, ic0Trap_eq, ?_⟩
  intro text htext hshort
  have hmin : min len.toNat maxDebugMessageSize = len.toNat := Nat.min_eq_left hshort
  rw [ic0DebugPrint_eq (by rw [hmin]; exact htext.1), messageBytes, hmin, htext.2,
    Utf8.decode_encode]

theorem messages_printed_hi :
    ic0DebugPrint (fun _ => "") (some (Utf8.encode "hi")) 0 2 [] = .ok () [.debugPrint "hi"] ∧
      ic0Trap (some (Utf8.encode "hi")) 0 2 [] = .ok () [.trap (fromUtf8 (messageBytes
        (Utf8.encode "hi") 0 2 maxErrorMessageSize))] := by
  obtain ⟨_, htrap, hwhole⟩ := messages_printed (fun _ => "") (Utf8.encode "hi") 0 2 []
  exact ⟨hwhole "hi" ⟨by decide, by decide⟩ (by decide), htrap (by decide)⟩

end Messages

/-- Both calls fail with an error where the message is not inside the memory. -/
def RangesChecked (describe : List Byte → String) : Prop :=
  ∀ memory src len printed, memory.length < src.toNat + len.toNat →
    (∃ error printed', ic0DebugPrint describe (some memory) src len printed =
        .error (.fault error) printed') ∧
      ∃ error printed', ic0Trap (some memory) src len printed = .error (.fault error) printed'

/-- `debug_print` prints every text in the memory. -/
def WholeMessages (describe : List Byte → String) : Prop :=
  ∀ memory src len text printed, MessageAt memory src len text →
    ic0DebugPrint describe (some memory) src len printed = .ok () (printed ++ [.debugPrint text])

/-- A text of 32769 letters. -/
def longText : String := Latin1.latin1 (List.replicate (maxDebugMessageSize + 1) 97)

lemma length_longText : (Utf8.encode longText).length = maxDebugMessageSize + 1 := by
  have hascii : Latin1.utf8 longText = List.replicate (maxDebugMessageSize + 1) 97 := by
    rw [longText, Latin1.utf8_latin1_iff]
    intro byte hbyte
    rw [List.eq_of_mem_replicate hbyte]
    decide
  rw [Utf8.encode, hascii, List.length_map, List.length_replicate]

/-- A byte behind an empty memory is a panic, and a text of more than 32 KiB is cut. -/
theorem messages_unchecked : ¬∃ describe, RangesChecked describe ∨ WholeMessages describe := by
  intro hsome
  obtain ⟨describe, h | h⟩ := hsome
  · obtain ⟨⟨error, printed', hfault⟩, _⟩ := h [] 0 1 [] (by decide)
    rw [ic0DebugPrint_panics (by decide)] at hfault
    cases hfault
  · have hlen : (BitVec.ofNat 32 (maxDebugMessageSize + 1)).toNat = maxDebugMessageSize + 1 := by
      decide
    have hmessage : MessageAt (Utf8.encode longText) 0 (BitVec.ofNat 32 (maxDebugMessageSize + 1))
        longText := by
      constructor
      · rw [hlen, length_longText]
        decide
      · rw [hlen, ← length_longText]
        exact List.take_length
    have hmin : min (maxDebugMessageSize + 1) maxDebugMessageSize = maxDebugMessageSize := by decide
    have hin : (0#32).toNat + min (BitVec.ofNat 32 (maxDebugMessageSize + 1)).toNat
        maxDebugMessageSize ≤ (Utf8.encode longText).length := by
      rw [hlen, hmin, length_longText]
      decide
    have hcut := congrArg List.length (encode_printed hin (h _ _ _ _ [] hmessage))
    rw [messageBytes, hlen, hmin, List.length_take, length_longText] at hcut
    omega

end Wasi

end MotokoDebugger
