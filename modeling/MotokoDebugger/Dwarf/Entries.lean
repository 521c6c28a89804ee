import MotokoDebugger.Core.Untyped
import MotokoDebugger.Lib.Fallible

/-!
# Debugging information entries

The entries of `.debug_info` as `gimli` hands them out, and `debugger/src/dwarf/utils.rs`. Of
`gimli` the parsed entries are taken as given, each with its attributes and its children up to the
end or to what could not be read.

* `Entry.attrValue`: the value of an attribute.
* `cloneStringAttribute`: its text.
-/

namespace MotokoDebugger

namespace Dwarf

open Fallible

/-- How a computation ends that returns no value: with an error, or with a panic. -/
inductive Failure where
  | error (text : String)
  | panic
deriving Repr, DecidableEq

/-- An error that the source hands on with `?`. -/
def tryOk {α : Type} : Except String α → Except Failure α
  | .ok a => .ok a
  | .error text => .error (.error text)

@[simp] lemma tryOk_eq_ok {α : Type} {x : Except String α} {a : α} :
    tryOk x = .ok a ↔ x = .ok a := by
  cases x with
  | ok b => simp [tryOk]
  | error text => simp [tryOk]

/-- `unwrap` and `expect`. -/
def unwrap {ε α : Type} : Except ε α → Except Failure α
  | .ok a => .ok a
  | .error _ => .error .panic

@[simp] lemma unwrap_eq_ok {ε α : Type} {x : Except ε α} {a : α} : unwrap x = .ok a ↔ x = .ok a := by
  cases x with
  | ok b => simp [unwrap]
  | error e => simp [unwrap]

/-- `Context::with_context` of an option. -/
def withContext {α : Type} (text : String) : Option α → Except Failure α
  | some a => .ok a
  | none => .error (.error text)

section Panics

variable {ε α β : Type}

/-- What is handed on with `?` does not panic. -/
lemma tryOk_bind_panics {x : Except String α} {f : α → Except Failure β} :
    tryOk x >>= f = .error .panic ↔ ∃ a, x = .ok a ∧ f a = .error .panic := by
  rw [bind_eq_error]
  simp only [tryOk_eq_ok, or_iff_right_iff_imp]
  intro h
  cases x <;> cases h

lemma withContext_bind_panics {text : String} {x : Option α} {f : α → Except Failure β} :
    withContext text x >>= f = .error .panic ↔ ∃ a, x = some a ∧ f a = .error .panic := by
  cases x with
  | none => exact iff_of_false nofun (by simp)
  | some a =>
    show f a = .error .panic ↔ _
    simp

lemma unwrap_bind_panics {x : Except ε α} {f : α → Except Failure β} :
    unwrap x >>= f = .error .panic ↔
      (∃ e, x = .error e) ∨ ∃ a, x = .ok a ∧ f a = .error .panic := by
  cases x with
  | ok a =>
    show f a = .error .panic ↔ _
    simp
  | error e => exact iff_of_true rfl (.inl ⟨e, rfl⟩)

lemma withContext_bind_ok {text : String} {x : Option α} {f : α → Except Failure β} {b : β} :
    withContext text x >>= f = .ok b ↔ ∃ a, x = some a ∧ f a = .ok b := by
  cases x with
  | none => exact iff_of_false nofun (by simp)
  | some a =>
    show f a = .ok b ↔ _
    simp

end Panics

/-! ## Attributes -/

/-- The names of the attributes that are looked up. -/
inductive DwAt where
  | name | stmtList | byteSize | encoding | lowPc | highPc | frameBase
  | other (value : Nat)
deriving Repr, DecidableEq

/-- The base type encodings that are told apart. -/
inductive DwAte where
  | signed | unsigned
  | other (value : Nat)
deriving Repr, DecidableEq

/-- `gimli::AttributeValue`: the kinds of values that are told apart. -/
inductive AttributeValue where
  | addr (address : Nat)
  | data1 (value : BitVec 8)
  | data2 (value : BitVec 16)
  | data4 (value : BitVec 32)
  | data8 (value : BitVec 64)
  | sdata (value : Int)
  | udata (value : Nat)
  | exprloc (bytes : List Byte)
  | string (bytes : List Byte)
  | debugStrRef (offset : Nat)
  | debugStrRefSup (offset : Nat)
  | debugLineStrRef (offset : Nat)
  | debugLineRef (offset : Nat)
  | encoding (encoding : DwAte)
  | other (form : Nat)
deriving Repr, DecidableEq

/-- `AttributeValue::udata_value`. -/
def AttributeValue.udataValue : AttributeValue → Option Nat
  | data1 value => some value.toNat
  | data2 value => some value.toNat
  | data4 value => some value.toNat
  | data8 value => some value.toNat
  | sdata value => if value < 0 then none else some value.toNat
  | udata value => some value
  | _ => none

/-- The string sections: the text of an attribute of a unit (`attr_string` and `to_string`), that
of a reference into one of the sections, and what `{:?}` shows of a value. -/
structure Strings where
  attrString : AttributeValue → Except String String
  getStr : AttributeValue → Except String String
  debug : AttributeValue → String

/-- `clone_string_attribute`. -/
def cloneStringAttribute (dwarf : Strings) (attr : AttributeValue) : Except String String :=
  dwarf.attrString attr

/-- `clone_string_attribute_with_out_unit`: only inline strings and references into the string
sections. -/
def cloneStringAttributeWithOutUnit (dwarf : Strings) (attr : AttributeValue) :
    Except String String :=
  match attr with
  | .string _ | .debugStrRef _ | .debugStrRefSup _ | .debugLineStrRef _ => dwarf.getStr attr
  | _ => .error "Expected an attribute value to be a string form."

/-! ## Entries -/

/-- The tags that are told apart. -/
inductive DwTag where
  | baseType | classType | structureType | member
  | subprogram | lexicalBlock | inlinedSubroutine | variable | formalParameter
  | other (value : Nat)
deriving Repr, DecidableEq

/-- `DebuggingInformationEntry`: its attributes, up to the end or to one that cannot be read. -/
structure Entry where
  tag : DwTag
  offset : Nat
  attrs : List (DwAt × AttributeValue)
  attrsEnd : Except String Unit

/-- `DebuggingInformationEntry::attr_value`. -/
def Entry.attrValue (entry : Entry) (key : DwAt) : Except String (Option AttributeValue) :=
  match entry.attrs.lookup key with
  | some attr => .ok (some attr)
  | none => entry.attrsEnd.map fun _ => none

/-- The name of an entry, or a text for entries without a name. -/
def Entry.nameOr (entry : Entry) (dwarf : Strings) (default : String) : Except Failure String := do
  match ← tryOk (entry.attrValue .name) with
  | some attr => tryOk (cloneStringAttribute dwarf attr)
  | none => return default

/-- `EntriesTreeNode`: an entry and its children, up to the last or to one that cannot be read. -/
inductive EntriesTreeNode where
  | mk (entry : Entry) (children : List EntriesTreeNode) (childrenEnd : Except String Unit)

namespace EntriesTreeNode

def entry : EntriesTreeNode → Entry
  | mk entry _ _ => entry

def children : EntriesTreeNode → List EntriesTreeNode
  | mk _ children _ => children

def childrenEnd : EntriesTreeNode → Except String Unit
  | mk _ _ childrenEnd => childrenEnd

/-- Induction over the entries of a tree. -/
@[elab_as_elim]
lemma induction {P : EntriesTreeNode → Prop}
    (mk : ∀ entry children childrenEnd, (∀ child ∈ children, P child) →
      P (.mk entry children childrenEnd)) (node : EntriesTreeNode) : P node :=
  @EntriesTreeNode.rec P (fun children => ∀ child ∈ children, P child) mk
    (fun _ hmem => nomatch hmem)
    (fun _ _ hchild hchildren => List.forall_mem_cons.mpr ⟨hchild, hchildren⟩) node

end EntriesTreeNode

end Dwarf

end MotokoDebugger
