import MotokoDebugger.Dwarf.Entries

/-!
# Subprograms and lexical blocks

`debugger/src/dwarf/mod.rs`: the list of the subroutines of a unit, in the order in which the
traversal of its entries leaves them, and the search for the one of an offset.

* `transformSubprogram`: the traversal. `findSubroutine`: the search.
* `findSubroutine_innermost`: the search finds the innermost of the entries that are collected.
-/

namespace MotokoDebugger

namespace Dwarf

open Fallible

/-! ## Locations -/

inductive WasmLoc where
  | local (index : Nat)
  | global (index : Nat)
  | stack (index : Nat)
deriving Repr, DecidableEq

/-- `Reader::read_u8`. -/
def readU8 : List Byte → Except String (Byte × List Byte)
  | [] => .error "Hit the end of input before it was expected."
  | byte :: bytes => .ok (byte, bytes)

/-- `Reader::read_u32`, in little-endian order. -/
def readU32 (bytes : List Byte) : Except String (Nat × List Byte) :=
  if bytes.length < 4 then .error "Hit the end of input before it was expected."
  else .ok (fromLeBytes (bytes.take 4), bytes.drop 4)

/-- `gimli::leb128::read::unsigned`, at the given shift. -/
def readUleb128From (shift result : Nat) : List Byte → Except String (Nat × List Byte)
  | [] => .error "Hit the end of input before it was expected."
  | byte :: bytes =>
    if shift = 63 ∧ 1 < byte.toNat then .error "An error parsing an unsigned LEB128 value"
    else
      let result := result + byte.toNat % 128 * 2 ^ shift
      if byte.toNat < 128 then .ok (result, bytes)
      else readUleb128From (shift + 7) result bytes

/-- `Reader::read_uleb128`. -/
def readUleb128 (bytes : List Byte) : Except String (Nat × List Byte) :=
  readUleb128From 0 0 bytes

/-- `DwAtWasm::DW_OP_WASM_location`. -/
def dwOpWasmLocation : Byte := 0xed

/-- `read_wasm_location`. -/
def readWasmLocation (dwarf : Strings) (attrValue : AttributeValue) : Except String WasmLoc :=
  match attrValue with
  | .exprloc [] => .error "byte sequence should not be empty"
  | .exprloc (magic :: bytes) =>
    if magic ≠ dwOpWasmLocation then
      .error ("invalid wasm location magic: " ++ toString magic.toNat)
    else do
      let (wasmOp, bytes) ← readU8 bytes
      match wasmOp.toNat with
      | 0x00 => return .local (← readUleb128 bytes).1
      | 0x01 => return .global (← readUleb128 bytes).1
      | 0x02 => return .stack (← readUleb128 bytes).1
      | 0x03 => return .global (← readU32 bytes).1
      | op => .error ("invalid wasm location operation: " ++ toString op)
  | _ => .error ("unexpected attribute kind: " ++ dwarf.debug attrValue)

/-! ## The traversal -/

/-- `gimli::Encoding`. -/
structure Encoding where
  addressSize : Nat
  dwarf64 : Bool
  version : Nat
deriving Repr, DecidableEq

structure Subroutine where
  pc : Nat × Nat
  entryOffset : Nat
  unitOffset : Nat
  encoding : Encoding
  frameBase : Option WasmLoc
deriving Repr, DecidableEq

/-- `Range::contains`. -/
def Subroutine.containsPc (subroutine : Subroutine) (offset : Nat) : Bool :=
  subroutine.pc.1 ≤ offset ∧ offset < subroutine.pc.2

/-- What the traversal is told about the unit. -/
structure UnitContext where
  dwarf : Strings
  encoding : Encoding
  unitOffset : Nat

/-- The tags of the entries that are collected. -/
def DwTag.isCollected : DwTag → Bool
  | .subprogram | .lexicalBlock => true
  | _ => false

/-- The range of `DW_AT_low_pc` and `DW_AT_high_pc`; the latter is an address or a size. -/
def readPcRange (lowPcAttr highPcAttr : Option AttributeValue) :
    Except Failure (Option (Nat × Nat)) :=
  match lowPcAttr, highPcAttr with
  | some (.addr lowPc), some (.udata size) => .ok (some (lowPc, (lowPc + size) % 2 ^ 64))
  | some (.addr lowPc), some (.addr highPc) => .ok (some (lowPc, highPc))
  | some (.addr _), some _ => .error .panic
  | _, _ => .ok none

/-- `read_subprogram_header`, for an entry with one of these tags. -/
def readHeader (unit : UnitContext) (entry : Entry) : Except Failure (Option Subroutine) := do
  let nameAttr ← tryOk (entry.attrValue .name)
  let _ ← nameAttr.mapM fun attr => tryOk (cloneStringAttribute unit.dwarf attr)
  let lowPcAttr ← tryOk (entry.attrValue .lowPc)
  let highPcAttr ← tryOk (entry.attrValue .highPc)
  let frameBaseAttr ← tryOk (entry.attrValue .frameBase)
  match ← readPcRange lowPcAttr highPcAttr with
  | some pc =>
    let frameBase ← frameBaseAttr.mapM fun attr => tryOk (readWasmLocation unit.dwarf attr)
    return some ⟨pc, entry.offset, unit.unitOffset, unit.encoding, frameBase⟩
  | none => return none

/-- `read_subprogram_header`. -/
def readSubprogramHeader (unit : UnitContext) (entry : Entry) :
    Except Failure (Option Subroutine) :=
  if entry.tag.isCollected then readHeader unit entry else .ok none

/-- The tags of the children that are not descended into. -/
def DwTag.isSkipped : DwTag → Bool
  | .variable | .formalParameter => true
  | _ => false

mutual

/-- `transform_subprogram_rec`. -/
def transformSubprogramRec (unit : UnitContext) (node : EntriesTreeNode)
    (outSubroutines : List Subroutine) : Except Failure (List Subroutine) :=
  match node with
  | .mk entry children childrenEnd => do
    let subroutine ← readSubprogramHeader unit entry
    let outSubroutines ← transformChildren unit children outSubroutines
    tryOk childrenEnd
    return outSubroutines ++ subroutine.toList

/-- The loop over the children. -/
def transformChildren (unit : UnitContext) (children : List EntriesTreeNode)
    (outSubroutines : List Subroutine) : Except Failure (List Subroutine) :=
  match children with
  | [] => .ok outSubroutines
  | child :: children =>
    if child.entry.tag.isSkipped then transformChildren unit children outSubroutines
    else do
      let outSubroutines ← transformSubprogramRec unit child outSubroutines
      transformChildren unit children outSubroutines

end

/-- `transform_subprogram`. -/
def transformSubprogram (unit : UnitContext) (root : EntriesTreeNode) :
    Except Failure (List Subroutine) :=
  transformSubprogramRec unit root []

/-- The search of `variable_name_list`, `get_frame_base` and `display_variable`. -/
def findSubroutine (subroutines : List Subroutine) (codeOffset : Nat) : Option Subroutine :=
  subroutines.find? fun subroutine => subroutine.containsPc codeOffset

/-- `get_frame_base`. -/
def getFrameBase (subroutines : List Subroutine) (codeOffset : Nat) :
    Except Failure (Option WasmLoc) := do
  let subroutine ← withContext "failed to determine subroutine"
    (findSubroutine subroutines codeOffset)
  return subroutine.frameBase

/-! ## Scopes -/

/-- The half-open range of addresses that an entry gives. -/
def Entry.pcRange (entry : Entry) : Option (Nat × Nat) :=
  match entry.attrValue .lowPc, entry.attrValue .highPc with
  | .ok (some (.addr lowPc)), .ok (some (.udata size)) => some (lowPc, (lowPc + size) % 2 ^ 64)
  | .ok (some (.addr lowPc)), .ok (some (.addr highPc)) => some (lowPc, highPc)
  | _, _ => none

/-- The entry is one of the given kinds of scopes, with an offset in its range. -/
def Entry.Covers (kinds : DwTag → Bool) (entry : Entry) (pc : Nat) : Prop :=
  kinds entry.tag ∧ ∃ range ∈ entry.pcRange, range.1 ≤ pc ∧ pc < range.2

/-- The entry at a path of child indices that does not lead below a variable or parameter. -/
def EntriesTreeNode.entryAt : EntriesTreeNode → List Nat → Option Entry
  | node, [] => some node.entry
  | node, i :: path =>
    match node.children[i]? with
    | some child => if child.entry.tag.isSkipped then none else child.entryAt path
    | none => none

lemma entryAt_nil (node : EntriesTreeNode) : node.entryAt [] = some node.entry := by
  rw [EntriesTreeNode.entryAt]

lemma entryAt_cons {node : EntriesTreeNode} {i : Nat} {path : List Nat} {entry : Entry} :
    node.entryAt (i :: path) = some entry ↔ ∃ child, node.children[i]? = some child ∧
      child.entry.tag.isSkipped = false ∧ child.entryAt path = some entry := by
  rw [EntriesTreeNode.entryAt]
  cases node.children[i]? with
  | none => simp
  | some child => simp

/-- Scopes inside others have their ranges inside, and scopes in different children of an entry
have nothing in common. -/
structure EntriesTreeNode.Nested (kinds : DwTag → Bool) (root : EntriesTreeNode) : Prop where
  inside : ∀ path rest outer inner, root.entryAt path = some outer →
    root.entryAt (path ++ rest) = some inner → kinds outer.tag → outer.pcRange.isSome →
    ∀ pc, inner.Covers kinds pc → outer.Covers kinds pc
  siblings : ∀ path i j left right entry entry', i ≠ j →
    root.entryAt (path ++ i :: left) = some entry →
    root.entryAt (path ++ j :: right) = some entry' →
    ∀ pc, entry.Covers kinds pc → ¬entry'.Covers kinds pc

/-- The entry at the path covers the offset, and all others that do enclose it. -/
structure EntriesTreeNode.Innermost (kinds : DwTag → Bool) (root : EntriesTreeNode) (pc : Nat)
    (path : List Nat) (entry : Entry) : Prop where
  found : root.entryAt path = some entry
  covers : entry.Covers kinds pc
  encloses : ∀ path' entry', root.entryAt path' = some entry' → entry'.Covers kinds pc →
    path' <+: path

/-- What is found for an offset is the innermost scope, or there is none. -/
def EntriesTreeNode.Answers (kinds : DwTag → Bool) (root : EntriesTreeNode) (pc : Nat) :
    Option Subroutine → Prop
  | some subroutine => ∃ path entry, root.Innermost kinds pc path entry ∧
      entry.offset = subroutine.entryOffset ∧ entry.pcRange = some subroutine.pc
  | none => ∀ path entry, root.entryAt path = some entry → ¬entry.Covers kinds pc

/-! ## The order of the list -/

mutual

/-- The entries in the order in which the traversal leaves them, with their paths. -/
def EntriesTreeNode.left : EntriesTreeNode → List (List Nat × Entry)
  | .mk entry children _ => leftOfChildren 0 children ++ [([], entry)]

/-- The same for children, of which the first has the given index. -/
def leftOfChildren (i : Nat) : List EntriesTreeNode → List (List Nat × Entry)
  | [] => []
  | child :: children =>
    (if child.entry.tag.isSkipped then [] else child.left.map fun (path, entry) => (i :: path, entry))
      ++ leftOfChildren (i + 1) children

end

lemma mem_leftOfChildren {i : Nat} {children : List EntriesTreeNode} {path : List Nat}
    {entry : Entry} :
    (path, entry) ∈ leftOfChildren i children ↔
      ∃ j child rest, children[j]? = some child ∧ child.entry.tag.isSkipped = false ∧
        path = (i + j) :: rest ∧ (rest, entry) ∈ child.left := by
  induction children generalizing i with
  | nil =>
    rw [leftOfChildren]
    simp
  | cons child children ih =>
    rw [leftOfChildren, List.mem_append, ih]
    constructor
    · intro h
      rcases h with hchild | ⟨j, other, rest, hother, hkept, hpath, hmem⟩
      · cases hskip : child.entry.tag.isSkipped with
        | true =>
          rw [hskip, if_pos rfl] at hchild
          cases hchild
        | false =>
          rw [hskip, if_neg Bool.false_ne_true] at hchild
          obtain ⟨⟨rest, entry'⟩, hmem, heq⟩ := List.mem_map.mp hchild
          cases heq
          exact ⟨0, child, rest, rfl, hskip, rfl, hmem⟩
      · exact ⟨j + 1, other, rest, hother, hkept, by rw [hpath]; congr 1; omega, hmem⟩
    · intro h
      obtain ⟨j, other, rest, hother, hkept, hpath, hmem⟩ := h
      cases j with
      | zero =>
        cases hother
        left
        rw [hkept, if_neg Bool.false_ne_true]
        exact List.mem_map.mpr ⟨(rest, entry), hmem, by rw [hpath]; rfl⟩
      | succ j =>
        right
        exact ⟨j, other, rest, hother, hkept, by rw [hpath]; congr 1; omega, hmem⟩

/-- The list has the entries of the tree. -/
lemma mem_left {node : EntriesTreeNode} {path : List Nat} {entry : Entry} :
    (path, entry) ∈ node.left ↔ node.entryAt path = some entry := by
  induction node using EntriesTreeNode.induction generalizing path with
  | mk own children childrenEnd ih =>
    rw [EntriesTreeNode.left, List.mem_append, mem_leftOfChildren, List.mem_singleton]
    cases path with
    | nil =>
      rw [entryAt_nil, Option.some.injEq]
      constructor
      · intro h
        rcases h with ⟨_, _, _, _, _, hpath, _⟩ | hroot
        · cases hpath
        · exact (Prod.mk.inj hroot).2.symm
      · intro h
        exact .inr (Prod.ext rfl h.symm)
    | cons i path =>
      rw [entryAt_cons]
      constructor
      · intro h
        rcases h with ⟨j, child, rest, hchild, hkept, hpath, hmem⟩ | hroot
        · obtain ⟨rfl, rfl⟩ : i = j ∧ path = rest := by
            rw [zero_add] at hpath
            exact List.cons.inj hpath
          exact ⟨child, hchild, hkept, (ih child (List.mem_of_getElem? hchild)).mp hmem⟩
        · cases hroot
      · intro h
        obtain ⟨child, hchild, hkept, hentry⟩ := h
        exact .inl ⟨i, child, path, hchild, hkept, by rw [zero_add],
          (ih child (List.mem_of_getElem? hchild)).mpr hentry⟩

/-- `b` is not below `a`. -/
def NotAbove (a b : List Nat × Entry) : Prop := ¬a.1 <+: b.1

/-- Entries are left after all that are below them. -/
lemma pairwise_left (node : EntriesTreeNode) : node.left.Pairwise NotAbove := by
  induction node using EntriesTreeNode.induction with
  | mk own children childrenEnd ih =>
    have hchildren : ∀ i, (leftOfChildren i children).Pairwise NotAbove := by
      induction children with
      | nil => exact fun _ => List.Pairwise.nil
      | cons child children ihs =>
        intro i
        rw [List.forall_mem_cons] at ih
        rw [leftOfChildren, List.pairwise_append]
        refine ⟨?_, ihs ih.2 (i + 1), ?_⟩
        · split
          · exact List.Pairwise.nil
          · rw [List.pairwise_map]
            apply ih.1.imp
            intro a b hab
            show ¬i :: a.1 <+: i :: b.1
            rw [List.cons_prefix_cons]
            exact fun h => hab h.2
        · intro a ha b hb
          split at ha
          · cases ha
          · -- the paths part at the index of the child
            obtain ⟨x, _, rfl⟩ := List.mem_map.mp ha
            obtain ⟨j, _, rest, _, _, hpath, _⟩ := mem_leftOfChildren.mp hb
            show ¬i :: x.1 <+: b.1
            rw [hpath, List.cons_prefix_cons]
            omega
    rw [EntriesTreeNode.left, List.pairwise_append]
    refine ⟨hchildren 0, List.pairwise_singleton _ _, ?_⟩
    intro a ha b hb
    obtain ⟨j, _, rest, _, _, hpath, _⟩ := mem_leftOfChildren.mp ha
    rw [List.mem_singleton] at hb
    show ¬a.1 <+: b.1
    rw [hpath, hb]
    exact fun h => nomatch List.prefix_nil.mp h

/-! ## What the search finds -/

section Traversal

variable {unit : UnitContext} {node : EntriesTreeNode} {out subroutines : List Subroutine}

/-- What an entry contributes to the list. -/
def headerOf (unit : UnitContext) (entry : Entry) : Option Subroutine :=
  (readSubprogramHeader unit entry).toOption.join

/-- The list has what the entries contribute, in the order in which they are left. -/
def Lists (unit : UnitContext) (left : List (List Nat × Entry)) (out subroutines : List Subroutine) :
    Prop :=
  (∀ x ∈ left, ∃ subroutine, readSubprogramHeader unit x.2 = .ok subroutine) ∧
    subroutines = out ++ left.filterMap fun x => headerOf unit x.2

lemma Lists.append {left left' : List (List Nat × Entry)} {middle : List Subroutine}
    (h : Lists unit left out middle) (h' : Lists unit left' middle subroutines) :
    Lists unit (left ++ left') out subroutines := by
  constructor
  · exact List.forall_mem_append.mpr ⟨h.1, h'.1⟩
  · rw [h'.2, h.2, List.filterMap_append, List.append_assoc]

/-- The index of a child does not change what it contributes. -/
lemma Lists.below {left : List (List Nat × Entry)} (h : Lists unit left out subroutines) (i : Nat) :
    Lists unit (left.map fun (path, entry) => (i :: path, entry)) out subroutines := by
  constructor
  · rw [List.forall_mem_map]
    exact h.1
  · rw [List.filterMap_map]
    exact h.2

/-- A traversal that returns has listed all entries. -/
lemma transformSubprogramRec_ok (h : transformSubprogramRec unit node out = .ok subroutines) :
    Lists unit node.left out subroutines := by
  induction node using EntriesTreeNode.induction generalizing out subroutines with
  | mk entry children childrenEnd ih =>
    have hchildren : ∀ i out subroutines,
        transformChildren unit children out = .ok subroutines →
          Lists unit (leftOfChildren i children) out subroutines := by
      clear h
      induction children with
      | nil =>
        intro i out subroutines h
        rw [transformChildren] at h
        cases h
        exact ⟨List.forall_mem_nil _, (List.append_nil _).symm⟩
      | cons child children ihs =>
        intro i out subroutines h
        rw [List.forall_mem_cons] at ih
        rw [transformChildren] at h
        rw [leftOfChildren]
        split at h
        · rename_i hskip
          rw [if_pos hskip]
          exact ihs ih.2 (i + 1) out subroutines h
        · rename_i hkept
          obtain ⟨middle, hchild, hrest⟩ := bind_eq_ok.mp h
          rw [if_neg hkept]
          exact ((ih.1 hchild).below i).append (ihs ih.2 (i + 1) middle subroutines hrest)
    rw [transformSubprogramRec] at h
    obtain ⟨subroutine, hheader, h⟩ := bind_eq_ok.mp h
    obtain ⟨middle, hmiddle, h⟩ := bind_eq_ok.mp h
    obtain ⟨_, _, h⟩ := bind_eq_ok.mp h
    cases h
    rw [EntriesTreeNode.left]
    apply (hchildren 0 out middle hmiddle).append
    constructor
    · rw [List.forall_mem_singleton]
      exact ⟨subroutine, hheader⟩
    · have hcontributes : headerOf unit entry = subroutine := by
        rw [headerOf, hheader]
        rfl
      rw [List.filterMap_cons, List.filterMap_nil, hcontributes]
      cases subroutine <;> rfl

lemma pcRange_eq {entry : Entry} {low high : Option AttributeValue} {pc : Option (Nat × Nat)}
    (hlow : entry.attrValue .lowPc = .ok low) (hhigh : entry.attrValue .highPc = .ok high)
    (h : readPcRange low high = .ok pc) : entry.pcRange = pc := by
  rw [Entry.pcRange, hlow, hhigh]
  unfold readPcRange at h
  split at h <;> simp_all

/-- What an entry contributes stands for it. -/
lemma header_stands {entry : Entry} {header : Option Subroutine}
    (h : readSubprogramHeader unit entry = .ok header) :
    (entry.tag.isCollected = true → header.map (·.pc) = entry.pcRange) ∧
      ∀ subroutine ∈ header, entry.tag.isCollected = true ∧
        subroutine.entryOffset = entry.offset := by
  rw [readSubprogramHeader] at h
  split at h
  · rename_i hcollected
    obtain ⟨nameAttr, _, h⟩ := bind_eq_ok.mp h
    obtain ⟨_, _, h⟩ := bind_eq_ok.mp h
    obtain ⟨lowPcAttr, hlow, h⟩ := bind_eq_ok.mp h
    obtain ⟨highPcAttr, hhigh, h⟩ := bind_eq_ok.mp h
    obtain ⟨frameBaseAttr, _, h⟩ := bind_eq_ok.mp h
    obtain ⟨pc, hpc, h⟩ := bind_eq_ok.mp h
    rw [pcRange_eq (tryOk_eq_ok.mp hlow) (tryOk_eq_ok.mp hhigh) hpc]
    cases pc with
    | none =>
      cases h
      exact ⟨fun _ => rfl, nofun⟩
    | some pc =>
      obtain ⟨frameBase, _, h⟩ := bind_eq_ok.mp h
      cases h
      simp [hcollected]
  · rename_i hcollected
    cases h
    exact ⟨fun htag => absurd htag hcollected, nofun⟩

/-- The entries that contribute a subroutine with the offset are those that cover it. -/
lemma any_headerOf {entry : Entry} {header : Option Subroutine} {pc : Nat}
    (h : readSubprogramHeader unit entry = .ok header) :
    (headerOf unit entry).any (·.containsPc pc) = true ↔ entry.Covers DwTag.isCollected pc := by
  obtain ⟨hrange, hstands⟩ := header_stands h
  have hheader : headerOf unit entry = header := by
    rw [headerOf, h]
    rfl
  rw [hheader, Option.any_eq_true]
  constructor
  · intro hany
    obtain ⟨subroutine, hsome, hcontains⟩ := hany
    have htag := (hstands subroutine hsome).1
    have hpc : entry.pcRange = some subroutine.pc := by
      rw [← hrange htag, hsome]
      rfl
    exact ⟨htag, subroutine.pc, hpc, of_decide_eq_true hcontains⟩
  · intro hcovers
    obtain ⟨htag, range, hpc, hin⟩ := hcovers
    rw [← hrange htag] at hpc
    obtain ⟨subroutine, hsome, rfl⟩ := Option.map_eq_some_iff.mp hpc
    exact ⟨subroutine, hsome, decide_eq_true hin⟩

end Traversal

/-- Two paths either extend each other or part somewhere. -/
lemma prefix_or_part (left right : List Nat) :
    left <+: right ∨ right <+: left ∨ ∃ path i j left' right', i ≠ j ∧
      left = path ++ i :: left' ∧ right = path ++ j :: right' := by
  induction left generalizing right with
  | nil => exact .inl List.nil_prefix
  | cons i left ih =>
    cases right with
    | nil => exact .inr (.inl List.nil_prefix)
    | cons j right =>
      by_cases hij : i = j
      · subst hij
        rcases ih right with hleft | hright | ⟨path, i', j', left', right', hne, rfl, rfl⟩
        · exact .inl ((List.prefix_cons_inj i).mpr hleft)
        · exact .inr (.inl ((List.prefix_cons_inj i).mpr hright))
        · exact .inr (.inr ⟨i :: path, i', j', left', right', hne, rfl, rfl⟩)
      · exact .inr (.inr ⟨[], i, j, left, right, hij, rfl, rfl⟩)

/-- Of two scopes with the offset, one encloses the other. -/
lemma EntriesTreeNode.Nested.comparable {kinds : DwTag → Bool} {root : EntriesTreeNode}
    (h : root.Nested kinds) {pc : Nat} {left right : List Nat} {entry entry' : Entry}
    (hleft : root.entryAt left = some entry) (hright : root.entryAt right = some entry')
    (hcovers : entry.Covers kinds pc) (hcovers' : entry'.Covers kinds pc) :
    left <+: right ∨ right <+: left := by
  rcases prefix_or_part left right with hprefix | hprefix | ⟨path, i, j, _, _, hne, rfl, rfl⟩
  · exact .inl hprefix
  · exact .inr hprefix
  · exact absurd hcovers' (h.siblings path i j _ _ _ _ hne hleft hright pc hcovers)

/-- The subroutine that is found for an offset is the innermost of the subprograms and lexical
blocks that contain it. -/
theorem findSubroutine_innermost {unit : UnitContext} {root : EntriesTreeNode}
    {subroutines : List Subroutine} (hread : transformSubprogram unit root = .ok subroutines)
    (hnested : root.Nested DwTag.isCollected) (pc : Nat) :
    root.Answers DwTag.isCollected pc (findSubroutine subroutines pc) := by
  obtain ⟨hheaders, hlist⟩ := transformSubprogramRec_ok hread
  have hcovers : ∀ x ∈ root.left,
      (headerOf unit x.2).any (·.containsPc pc) = true ↔ x.2.Covers DwTag.isCollected pc := by
    intro x hx
    obtain ⟨header, hheader⟩ := hheaders x hx
    exact any_headerOf hheader
  rw [hlist, List.nil_append, findSubroutine, List.find?_filterMap]
  cases hfind : root.left.find? fun x => (headerOf unit x.2).any (·.containsPc pc) with
  | none =>
    intro path entry hentry
    have hmem := mem_left.mpr hentry
    rw [← hcovers _ hmem]
    exact List.find?_eq_none.mp hfind _ hmem
  | some x =>
    obtain ⟨hany, before, after, hleft, hbefore⟩ := List.find?_eq_some_iff_append.mp hfind
    have hmem : x ∈ root.left := List.mem_of_find?_eq_some hfind
    obtain ⟨subroutine, hsome, _⟩ := (Option.any_eq_true _ _).mp hany
    obtain ⟨header, hheader⟩ := hheaders x hmem
    have hstands : x.2.offset = subroutine.entryOffset ∧ x.2.pcRange = some subroutine.pc := by
      have heq : header = some subroutine := by
        rw [headerOf, hheader] at hsome
        exact hsome
      subst heq
      obtain ⟨hrange, hentry⟩ := header_stands hheader
      obtain ⟨htag, hoffset⟩ := hentry subroutine rfl
      exact ⟨hoffset.symm, (hrange htag).symm⟩
    rw [Option.bind_some, hsome]
    refine ⟨x.1, x.2, ⟨mem_left.mp hmem, (hcovers x hmem).mp hany, ?_⟩, hstands⟩
    intro path entry hentry hother
    have hin := mem_left.mpr hentry
    have horder := pairwise_left root
    rw [hleft] at hin horder
    rcases List.mem_append.mp hin with hearlier | hlater
    · -- it would have been found first
      have hnot := hbefore _ hearlier
      rw [(hcovers _ (mem_left.mpr hentry)).mpr hother] at hnot
      cases hnot
    · rcases List.mem_cons.mp hlater with heq | hlater
      · obtain rfl := heq
        exact List.prefix_rfl
      · have hnot : ¬x.1 <+: path :=
          (List.pairwise_cons.mp (List.pairwise_append.mp horder).2.1).1 _ hlater
        exact (hnested.comparable (mem_left.mp hmem) hentry ((hcovers x hmem).mp hany)
          hother).resolve_left hnot

/-- The ranges of a tree that has to be checked entry by entry. -/
lemma nested_of_left {kinds : DwTag → Bool} {root : EntriesTreeNode}
    (hinside : ∀ a ∈ root.left, ∀ b ∈ root.left, a.1 <+: b.1 → ∀ outer ∈ a.2.pcRange,
      ∀ inner ∈ b.2.pcRange, outer.1 ≤ inner.1 ∧ inner.2 ≤ outer.2)
    (hsiblings : ∀ a ∈ root.left, ∀ b ∈ root.left, ¬a.1 <+: b.1 → ¬b.1 <+: a.1 →
      ∀ range ∈ a.2.pcRange, ∀ range' ∈ b.2.pcRange, range.2 ≤ range'.1 ∨ range'.2 ≤ range.1) :
    root.Nested kinds := by
  constructor
  · intro path rest outer inner houter hinner htag hrange pc hcovers
    obtain ⟨range, hrange⟩ := Option.isSome_iff_exists.mp hrange
    obtain ⟨_, range', hrange', hin⟩ := hcovers
    have hle := hinside _ (mem_left.mpr houter) _ (mem_left.mpr hinner) (List.prefix_append _ _)
      range hrange range' hrange'
    exact ⟨htag, range, hrange, by omega, by omega⟩
  · intro path i j left right entry entry' hne hleft hright pc hcovers hcovers'
    obtain ⟨_, range, hrange, hin⟩ := hcovers
    obtain ⟨_, range', hrange', hin'⟩ := hcovers'
    have hpart : ∀ {k l : Nat} {ks ls : List Nat}, k ≠ l → ¬path ++ k :: ks <+: path ++ l :: ls := by
      intro k l ks ls hkl hprefix
      rw [List.prefix_append_right_inj, List.cons_prefix_cons] at hprefix
      exact hkl hprefix.1
    have hdisjoint := hsiblings _ (mem_left.mpr hleft) _ (mem_left.mpr hright) (hpart hne)
      (hpart hne.symm) range hrange range' hrange'
    omega

/-- A unit without strings. -/
def plainUnit : UnitContext where
  dwarf := ⟨fun _ => .error "no strings", fun _ => .error "no strings", fun _ => ""⟩
  encoding := ⟨4, false, 4⟩
  unitOffset := 0

/-- An entry with a range of addresses. -/
def rangedEntry (tag : DwTag) (offset low size : Nat) : Entry :=
  ⟨tag, offset, [(.lowPc, .addr low), (.highPc, .udata size)], .ok ()⟩

/-- A unit with one subprogram, from 0 up to 100, and an entry in it from 10 up to 20. -/
def subprogramWith (tag : DwTag) : EntriesTreeNode :=
  .mk ⟨.other 0x11, 11, [], .ok ()⟩
    [.mk (rangedEntry .subprogram 20 0 100) [.mk (rangedEntry tag 30 10 10) [] (.ok ())] (.ok ())]
    (.ok ())

theorem findSubroutine_innermost_block : ∃ subroutines,
    transformSubprogram plainUnit (subprogramWith .lexicalBlock) = .ok subroutines ∧
      (subprogramWith .lexicalBlock).Answers DwTag.isCollected 15
        (findSubroutine subroutines 15) := by
  refine ⟨_, rfl, ?_⟩
  exact findSubroutine_innermost rfl (nested_of_left (by decide) (by decide)) 15

/-- The tags of subprograms, inlined subroutines and lexical blocks. -/
def DwTag.isScope : DwTag → Bool
  | .subprogram | .inlinedSubroutine | .lexicalBlock => true
  | _ => false

/-- An inlined subroutine that contains the offset is not what is found. -/
theorem findSubroutine_inlined :
    ¬∀ (unit : UnitContext) (root : EntriesTreeNode) (subroutines : List Subroutine),
      transformSubprogram unit root = .ok subroutines → root.Nested DwTag.isScope →
        ∀ pc, root.Answers DwTag.isScope pc (findSubroutine subroutines pc) := by
  intro h
  have hnested : (subprogramWith .inlinedSubroutine).Nested DwTag.isScope :=
    nested_of_left (by decide) (by decide)
  have hanswers := h plainUnit (subprogramWith .inlinedSubroutine) _ rfl hnested 15
  obtain ⟨path, entry, hinnermost, hoffset, _⟩ := hanswers
  have hencloses := hinnermost.encloses [0, 0] (rangedEntry .inlinedSubroutine 30 10 10) rfl
    ⟨rfl, (10, 20), rfl, by decide, by decide⟩
  have hmem : (path, entry) ∈ [([0, 0], rangedEntry .inlinedSubroutine 30 10 10),
      ([0], rangedEntry .subprogram 20 0 100), ([], ⟨.other 0x11, 11, [], .ok ()⟩)] :=
    mem_left.mpr hinnermost.found
  -- what is found stands for the subprogram
  have hsubprogram : entry.offset = 20 := hoffset
  simp only [List.mem_cons, Prod.mk.injEq, List.not_mem_nil, or_false] at hmem
  rcases hmem with ⟨_, rfl⟩ | ⟨rfl, _⟩ | ⟨rfl, _⟩
  · exact absurd hsubprogram (by decide)
  · exact absurd hencloses (by decide)
  · exact absurd hencloses (by decide)

end Dwarf

end MotokoDebugger
