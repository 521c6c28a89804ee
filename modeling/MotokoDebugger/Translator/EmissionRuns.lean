import Mathlib.Data.List.InsertIdx
import MotokoDebugger.Lib.Runs
import MotokoDebugger.Translator.Emission

/-!
# The branches of a translation

* `Emission.Inv`: every branch has its offset or is a user of its label, and the words in front of a
  pinned label are those that were there when it was pinned.
* `emits_inv`: every operation of the translator keeps the invariant.
* `runs_inv`: it holds after every sequence of operations.
-/

namespace MotokoDebugger

namespace Translator

open Fallible

namespace Emission

/-- All branches are in front of `k`, and no label is behind it. -/
def Behind (emission : Emission) (k : Nat) : Prop :=
  (∀ i branch, emission.branches i = some branch → i < k) ∧
    ∀ label target : Nat, emission.enc.labels.labels[label]? = some (Label.pinned target) →
      target ≤ k

/-- The branch at `i` waits for its label. -/
def Waits (emission : Emission) (i : Nat) (branch : Branch) (op : Op) : Prop :=
  ⟨branch.label, i⟩ ∈ emission.enc.labels.users ∧ branch.kind.Word emission.consts .uninit op

/-- The branch at `i` has the offset to its label. -/
def HasOffset (emission : Emission) (i : Nat) (branch : Branch) (op : Op) : Prop :=
  i ∉ emission.enc.labels.users.map (·.user) ∧ ∃ target offset,
    emission.enc.labels.labels[branch.label]? = some (.pinned target) ∧
      fromSrcToDst i target = .ok offset ∧ branch.kind.Word emission.consts offset op

structure Inv (emission : Emission) : Prop where
  last : ∀ k, emission.enc.lastInstr = some k →
    ∃ word, emission.enc.instrs[k]? = some word ∧ (word.op.Sealed ∨ emission.Behind k)
  pinned : ∀ label target : Nat, emission.enc.labels.labels[label]? = some (Label.pinned target) →
    ∃ words, emission.pins label = some words ∧ words.length = target ∧
      words.map unfueled = (emission.enc.instrs.take target).map unfueled
  nodup : (emission.enc.labels.users.map (·.user)).Nodup
  users : ∀ user ∈ emission.enc.labels.users, (emission.branches user.user).isSome
  emitted : ∀ i branch, emission.branches i = some branch →
    ∃ word, emission.enc.instrs[i]? = some word ∧
      (emission.Waits i branch word.op ∨ emission.HasOffset i branch word.op)
  complete : ∀ i word, emission.enc.instrs[i]? = some word → word.op.isBranch = true →
    (emission.branches i).isSome

end Emission

/-! ## What keeps the invariant -/

namespace Emission

variable {emission : Emission} {enc : InstrEncoder} {consts : FuncLocalConsts} {k : Nat}

/-- Everything is in front of the end of the words. -/
lemma Inv.behind_length (h : emission.Inv) : emission.Behind emission.enc.instrs.length := by
  refine ⟨fun i branch hbranch => ?_, fun label target hlabel => ?_⟩
  · obtain ⟨word, hword, _⟩ := h.emitted i branch hbranch
    exact (List.getElem?_eq_some_iff.1 hword).1
  · obtain ⟨words, _, hlen, hwords⟩ := h.pinned label target hlabel
    have htake := congrArg List.length hwords
    simp only [List.length_map, List.length_take] at htake
    omega

/-- The words in front of a pinned label. -/
lemma Inv.pinned_take (h : emission.Inv) (hbehind : emission.Behind k)
    (htake : (enc.instrs.take k).map unfueled = (emission.enc.instrs.take k).map unfueled)
    {label target : Nat} (hlabel : emission.enc.labels.labels[label]? = some (.pinned target)) :
    ∃ words, emission.pins label = some words ∧ words.length = target ∧
      words.map unfueled = (enc.instrs.take target).map unfueled := by
  obtain ⟨words, hpins, hlen, hwords⟩ := h.pinned label target hlabel
  refine ⟨words, hpins, hlen, ?_⟩
  have hle := hbehind.2 label target hlabel
  have htake' : ((enc.instrs.take k).map unfueled).take target =
      ((emission.enc.instrs.take k).map unfueled).take target := by rw [htake]
  rw [← List.map_take, ← List.map_take, List.take_take, List.take_take, Nat.min_eq_left hle] at htake'
  rw [hwords, htake']

/-- The words of the branches. -/
lemma Inv.emitted_take (h : emission.Inv) (hbehind : emission.Behind k)
    (htake : (enc.instrs.take k).map unfueled = (emission.enc.instrs.take k).map unfueled)
    {i : Nat} {branch : Branch} (hbranch : emission.branches i = some branch) :
    ∃ word, enc.instrs[i]? = some word ∧
      (emission.Waits i branch word.op ∨ emission.HasOffset i branch word.op) := by
  obtain ⟨old, hold, hstatus⟩ := h.emitted i branch hbranch
  obtain ⟨word, hword, heq⟩ := word_of_take htake (hbehind.1 i branch hbranch) hold
  refine ⟨word, hword, ?_⟩
  rw [op_of_isBranch heq]
  · exact hstatus
  · obtain ⟨_, hkind⟩ | ⟨_, _, _, _, _, hkind⟩ := hstatus <;> exact hkind.isBranch

lemma Inv.complete_take (h : emission.Inv)
    (htake : (enc.instrs.take k).map unfueled = (emission.enc.instrs.take k).map unfueled)
    {i : Nat} {word : Instruction} (hi : i < k) (hword : enc.instrs[i]? = some word)
    (hisBranch : word.op.isBranch = true) : (emission.branches i).isSome := by
  obtain ⟨old, hold, heq⟩ := word_of_take htake.symm hi hword
  rw [← isBranch_of_unfueled heq] at hisBranch
  exact h.complete i old hold hisBranch

/-- Words are appended, replaced or moved that no branch and no label depends on. -/
lemma Inv.keep (h : emission.Inv) (hbehind : emission.Behind k)
    (hlabels : enc.labels = emission.enc.labels) (hext : emission.consts.Extends consts)
    (htake : (enc.instrs.take k).map unfueled = (emission.enc.instrs.take k).map unfueled)
    (hrest : ∀ i word, k ≤ i → enc.instrs[i]? = some word → word.op.isBranch = false)
    (hlast : ∀ j, enc.lastInstr = some j →
      ∃ word, enc.instrs[j]? = some word ∧ (word.op.Sealed ∨ emission.Behind j)) :
    ({ emission with enc, consts } : Emission).Inv where
  last := by
    intro j hj
    obtain ⟨word, hword, hj⟩ := hlast j hj
    refine ⟨word, hword, hj.imp_right fun hj => ⟨hj.1, ?_⟩⟩
    rw [hlabels]
    exact hj.2
  pinned := by
    intro label target hlabel
    rw [hlabels] at hlabel
    exact h.pinned_take hbehind htake hlabel
  nodup := by
    rw [hlabels]
    exact h.nodup
  users := by
    rw [hlabels]
    exact h.users
  emitted := by
    intro i branch hbranch
    obtain ⟨word, hword, hstatus⟩ := h.emitted_take hbehind htake hbranch
    refine ⟨word, hword, ?_⟩
    unfold Waits HasOffset
    rw [hlabels]
    obtain ⟨huser, hkind⟩ | ⟨huser, target, offset, hlabel, hoffset, hkind⟩ := hstatus
    · exact .inl ⟨huser, hkind.extends hext⟩
    · exact .inr ⟨huser, target, offset, hlabel, hoffset, hkind.extends hext⟩
  complete := by
    intro i word hword hisBranch
    by_cases hi : i < k
    · exact h.complete_take htake hi hword hisBranch
    · rw [hrest i word (by omega) hword] at hisBranch
      simp at hisBranch

/-- The position has no user yet. -/
lemma Inv.not_user (h : emission.Inv) (hbehind : emission.Behind k) :
    k ∉ emission.enc.labels.users.map (·.user) := by
  intro hk
  obtain ⟨user, huser, rfl⟩ := List.mem_map.1 hk
  obtain ⟨branch, hbranch⟩ := Option.isSome_iff_exists.1 (h.users user huser)
  have hlt := hbehind.1 user.user branch hbranch
  omega

/-- The users after a branch to the label at `k`. -/
lemma users_of_resolve {label : Nat} {offset : BranchOffset} {enc₁ : InstrEncoder}
    (hresolve : emission.enc.tryResolveLabelFor label k = .ok (offset, enc₁)) :
    enc₁.labels.labels = emission.enc.labels.labels ∧
      (enc₁.labels.users = emission.enc.labels.users ∧
        (∃ target, emission.enc.labels.labels[label]? = some (Label.pinned target) ∧
          fromSrcToDst k target = .ok offset) ∨
      enc₁.labels.users = emission.enc.labels.users ++ [⟨label, k⟩] ∧ offset = .uninit) := by
  obtain ⟨target, hlabel, hoffset, rfl⟩ | ⟨hlabel, rfl, rfl⟩ := tryResolveLabelFor_ok hresolve
  · exact ⟨rfl, .inl ⟨rfl, target, hlabel, hoffset⟩⟩
  · exact ⟨rfl, .inr ⟨rfl, rfl⟩⟩

section
variable {label : Nat} {offset : BranchOffset} {enc₁ : InstrEncoder} {kind : BranchKind}

/-- A branch at `k` is the only new user. -/
lemma mem_users_emit (hresolve : emission.enc.tryResolveLabelFor label k = .ok (offset, enc₁))
    {user : LabelUser} (huser : user ∈ enc₁.labels.users) :
    user ∈ emission.enc.labels.users ∨ user = ⟨label, k⟩ := by
  obtain ⟨_, ⟨husers, _⟩ | ⟨husers, _⟩⟩ := users_of_resolve hresolve
  · rw [husers] at huser
    exact .inl huser
  · rw [husers] at huser
    exact (List.mem_append.1 huser).imp_right List.mem_singleton.1

lemma users_subset_emit (hresolve : emission.enc.tryResolveLabelFor label k = .ok (offset, enc₁)) :
    emission.enc.labels.users ⊆ enc₁.labels.users := by
  obtain ⟨_, ⟨husers, _⟩ | ⟨husers, _⟩⟩ := users_of_resolve hresolve
  · rw [husers]
    exact List.Subset.refl _
  · rw [husers]
    exact List.subset_append_left _ _

lemma nodup_emit (hnodup : (emission.enc.labels.users.map (·.user)).Nodup)
    (hnot : k ∉ emission.enc.labels.users.map (·.user))
    (hresolve : emission.enc.tryResolveLabelFor label k = .ok (offset, enc₁)) :
    (enc₁.labels.users.map (·.user)).Nodup := by
  obtain ⟨_, ⟨husers, _⟩ | ⟨husers, _⟩⟩ := users_of_resolve hresolve
  · rw [husers]
    exact hnodup
  · rw [husers, List.map_append, List.nodup_append]
    refine ⟨hnodup, by simp, fun i hi j hj hij => ?_⟩
    obtain rfl := List.mem_singleton.1 hj
    apply hnot
    rwa [← hij]

/-- The branch at `k` waits for its label, or it has its offset. -/
lemma status_emit_self (hnot : k ∉ emission.enc.labels.users.map (·.user))
    (hresolve : emission.enc.tryResolveLabelFor label k = .ok (offset, enc₁))
    (hlabels : enc.labels = enc₁.labels) {op : Op} (hkind : kind.Word consts offset op) :
    (emission.emit enc consts k label kind).Waits k ⟨label, kind⟩ op ∨
      (emission.emit enc consts k label kind).HasOffset k ⟨label, kind⟩ op := by
  obtain ⟨hlabs, ⟨husers, target, hlabel, hoffset⟩ | ⟨husers, rfl⟩⟩ := users_of_resolve hresolve
  · refine .inr ⟨?_, target, offset, ?_, hoffset, hkind⟩
    · show k ∉ enc.labels.users.map (·.user)
      rwa [hlabels, husers]
    · show enc.labels.labels[label]? = _
      rw [hlabels, hlabs, hlabel]
  · refine .inl ⟨?_, hkind⟩
    show ⟨label, k⟩ ∈ enc.labels.users
    rw [hlabels, husers]
    simp

/-- Another branch stays as it is. -/
lemma status_emit_other (hresolve : emission.enc.tryResolveLabelFor label k = .ok (offset, enc₁))
    (hlabels : enc.labels = enc₁.labels) (hext : emission.consts.Extends consts) {i : Nat}
    {branch : Branch} {op : Op} (hi : i ≠ k)
    (hstatus : emission.Waits i branch op ∨ emission.HasOffset i branch op) :
    (emission.emit enc consts k label kind).Waits i branch op ∨
      (emission.emit enc consts k label kind).HasOffset i branch op := by
  obtain ⟨huser, hkind⟩ | ⟨huser, target, offset, hlabel, hoffset, hkind⟩ := hstatus
  · refine .inl ⟨?_, hkind.extends hext⟩
    show ⟨branch.label, i⟩ ∈ enc.labels.users
    rw [hlabels]
    exact users_subset_emit hresolve huser
  · refine .inr ⟨fun hmem => ?_, target, offset, ?_, hoffset, hkind.extends hext⟩
    · obtain ⟨user, huser', rfl⟩ := List.mem_map.1 hmem
      rw [show (emission.emit enc consts k label kind).enc = enc from rfl, hlabels] at huser'
      obtain huser' | rfl := mem_users_emit hresolve huser'
      · exact huser (List.mem_map_of_mem huser')
      · exact hi rfl
    · show enc.labels.labels[branch.label]? = _
      rw [hlabels, (users_of_resolve hresolve).1, hlabel]

/-- A branch at `k`. -/
lemma Inv.emit (h : emission.Inv) (hbehind : emission.Behind k) {word : Instruction}
    (hresolve : emission.enc.tryResolveLabelFor label k = .ok (offset, enc₁))
    (hlabels : enc.labels = enc₁.labels) (hext : emission.consts.Extends consts)
    (htake : (enc.instrs.take k).map unfueled = (emission.enc.instrs.take k).map unfueled)
    (hword : enc.instrs[k]? = some word) (hkind : kind.Word consts offset word.op)
    (hrest : ∀ i word, k < i → enc.instrs[i]? = some word → word.op.isBranch = false)
    (hlast : ∀ j, enc.lastInstr = some j → ∃ word, enc.instrs[j]? = some word ∧ word.op.Sealed) :
    (emission.emit enc consts k label kind).Inv := by
  have hnot := h.not_user hbehind
  have hself : (emission.emit enc consts k label kind).branches k = some ⟨label, kind⟩ :=
    Function.update_self _ _ _
  have hother : ∀ i, i ≠ k → (emission.emit enc consts k label kind).branches i =
      emission.branches i := fun i hi => Function.update_of_ne hi _ _
  constructor
  case last =>
    intro j hj
    obtain ⟨word, hword, hsealed⟩ := hlast j hj
    exact ⟨word, hword, .inl hsealed⟩
  case pinned =>
    intro label' target hlabel
    rw [show (emission.emit enc consts k label kind).enc = enc from rfl, hlabels,
      (users_of_resolve hresolve).1] at hlabel
    exact h.pinned_take hbehind htake hlabel
  case nodup =>
    show (enc.labels.users.map (·.user)).Nodup
    rw [hlabels]
    exact nodup_emit h.nodup hnot hresolve
  case users =>
    intro user huser
    rw [show (emission.emit enc consts k label kind).enc = enc from rfl, hlabels] at huser
    obtain huser | rfl := mem_users_emit hresolve huser
    · have hne : user.user ≠ k := fun hk => hnot (hk ▸ List.mem_map_of_mem huser)
      rw [hother user.user hne]
      exact h.users user huser
    · rw [hself]
      rfl
  case emitted =>
    -- the branch at `k` is new, and the words in front of it are as they were
    intro i branch hbranch
    by_cases hi : i = k
    · rw [hi, hself] at hbranch
      obtain rfl := Option.some.inj hbranch
      rw [hi]
      exact ⟨word, hword, status_emit_self hnot hresolve hlabels hkind⟩
    · rw [hother i hi] at hbranch
      obtain ⟨old, hold, hstatus⟩ := h.emitted_take hbehind htake hbranch
      exact ⟨old, hold, status_emit_other hresolve hlabels hext hi hstatus⟩
  case complete =>
    intro i new hnew hisBranch
    by_cases hi : i = k
    · rw [hi, hself]
      rfl
    · rw [hother i hi]
      by_cases hlt : i < k
      · exact h.complete_take htake hlt hnew hisBranch
      · rw [hrest i new (by omega) hnew] at hisBranch
        simp at hisBranch

end

end Emission

/-! ## The operations -/

section
variable {emission : Emission} {enc : InstrEncoder} {consts : FuncLocalConsts} {k : Nat}

lemma Emission.Inv.start : Emission.start.Inv where
  last := by simp [Emission.start, InstrEncoder.reset]
  pinned := by simp [Emission.start, InstrEncoder.reset]
  nodup := by simp [Emission.start, InstrEncoder.reset]
  users := by simp [Emission.start, InstrEncoder.reset]
  emitted := by simp [Emission.start]
  complete := by simp [Emission.start, InstrEncoder.reset]

/-- Words behind the others. -/
lemma Emission.Inv.append (h : emission.Inv) (words : List Instruction)
    (hother : ∀ word ∈ words, word.op.isBranch = false)
    (hlabels : enc.labels = emission.enc.labels)
    (hinstrs : enc.instrs.map unfueled = (emission.enc.instrs ++ words).map unfueled)
    (hlast : enc.lastInstr = emission.enc.lastInstr ∨
      words ≠ [] ∧ enc.lastInstr = some emission.enc.instrs.length) :
    ({ emission with enc } : Emission).Inv := by
  have htake : (enc.instrs.take emission.enc.instrs.length).map unfueled =
      (emission.enc.instrs.take emission.enc.instrs.length).map unfueled := by
    rw [List.map_take, hinstrs, ← List.map_take, List.take_left, List.take_length]
  have hlen : enc.instrs.length = emission.enc.instrs.length + words.length := by
    simpa using congrArg List.length hinstrs
  apply h.keep h.behind_length hlabels (.refl _) htake
  · intro i word hi hword
    have hi' := congrArg (·[i]?) hinstrs
    simp only [List.getElem?_map, hword, Option.map_some, List.getElem?_append_right hi] at hi'
    obtain ⟨word', hword', heq⟩ := Option.map_eq_some_iff.1 hi'.symm
    rw [isBranch_of_unfueled heq.symm]
    exact hother word' (List.mem_of_getElem? hword')
  · intro j hj
    obtain hlast | ⟨hne, hlast⟩ := hlast
    · rw [hlast] at hj
      obtain ⟨word, hword, hsealed⟩ := h.last j hj
      obtain ⟨word', hword', heq⟩ :=
        word_of_take htake (List.getElem?_eq_some_iff.1 hword).1 hword
      exact ⟨word', hword', hsealed.imp_left (sealed_of_unfueled heq)⟩
    · rw [hlast] at hj
      obtain rfl := Option.some.inj hj
      have hpos := List.length_pos_iff.2 hne
      have hlt : emission.enc.instrs.length < enc.instrs.length := by omega
      exact ⟨enc.instrs[emission.enc.instrs.length], List.getElem?_eq_getElem hlt,
        .inr h.behind_length⟩

/-- What is behind an instruction that is not sealed. -/
lemma Emission.Inv.last_behind (h : emission.Inv) {last : Instruction}
    (hlast : emission.enc.lastInstr = some k) (hword : emission.enc.instrs[k]? = some last)
    (hsealed : ¬ last.op.Sealed) :
    emission.Behind k ∧ ∀ i word, k ≤ i → emission.enc.instrs[i]? = some word →
      word.op.isBranch = false := by
  obtain ⟨word, hword', hbehind⟩ := h.last k hlast
  obtain rfl := Option.some.inj (hword.symm.trans hword')
  have hbehind := hbehind.resolve_left hsealed
  refine ⟨hbehind, fun i word hi hword => Bool.eq_false_iff.2 fun hisBranch => ?_⟩
  obtain ⟨branch, hbranch⟩ := Option.isSome_iff_exists.1 (h.complete i word hword hisBranch)
  have hlt := hbehind.1 i branch hbranch
  omega

/-- The last instruction can be replaced where it is not sealed. -/
lemma Emission.Inv.replaceLast (h : emission.Inv) {last word : Instruction}
    (hlast : emission.enc.lastInstr = some k) (hword : emission.enc.instrs[k]? = some last)
    (hsealed : ¬ last.op.Sealed) (hother : word.op.isBranch = false)
    (henc : enc = { emission.enc with instrs := emission.enc.instrs.set k word }) :
    ({ emission with enc } : Emission).Inv := by
  obtain ⟨hbehind, hrest⟩ := h.last_behind hlast hword hsealed
  have hk := (List.getElem?_eq_some_iff.1 hword).1
  have hinstrs : enc.instrs = emission.enc.instrs.set k word := by rw [henc]
  apply h.keep hbehind (by rw [henc]) (.refl _)
  · rw [hinstrs, List.take_set_of_le (Nat.le_refl k)]
  · intro i word' hi hword'
    rw [hinstrs] at hword'
    by_cases hik : i = k
    · rw [hik, List.getElem?_set_self hk] at hword'
      rw [← Option.some.inj hword', hother]
    · rw [List.getElem?_set_ne (Ne.symm hik)] at hword'
      exact hrest i word' hi hword'
  · intro j hj
    rw [henc] at hj
    obtain rfl := Option.some.inj (hlast.symm.trans hj)
    exact ⟨word, by rw [hinstrs, List.getElem?_set_self hk], .inr hbehind⟩

/-- The preservation is put in front of the last instruction. -/
lemma Emission.Inv.shiftLast (h : emission.Inv) {last word copy : Instruction}
    (hlast : emission.enc.lastInstr = some k) (hword : emission.enc.instrs[k]? = some last)
    (hsealed : ¬ last.op.Sealed) (hother : word.op.isBranch = false)
    (hcopy : copy.op.isBranch = false) {words : List Instruction}
    (hwords : words.map unfueled = (emission.enc.instrs.set k word).map unfueled)
    (henc : enc = { emission.enc with instrs := words.insertIdx k copy, lastInstr := some (k + 1) }) :
    ({ emission with enc } : Emission).Inv := by
  obtain ⟨hbehind, hrest⟩ := h.last_behind hlast hword hsealed
  have hk := (List.getElem?_eq_some_iff.1 hword).1
  have hlen : words.length = emission.enc.instrs.length := by
    simpa using congrArg List.length hwords
  have hrest' : ∀ i word', k ≤ i → words[i]? = some word' → word'.op.isBranch = false := by
    intro i word' hi hword'
    have hi' := congrArg (·[i]?) hwords
    simp only [List.getElem?_map, hword', Option.map_some] at hi'
    obtain ⟨old, hold, heq⟩ := Option.map_eq_some_iff.1 hi'.symm
    rw [isBranch_of_unfueled heq.symm]
    by_cases hik : i = k
    · rw [hik, List.getElem?_set_self hk] at hold
      rw [← Option.some.inj hold, hother]
    · rw [List.getElem?_set_ne (Ne.symm hik)] at hold
      exact hrest i old hi hold
  have hinstrs : enc.instrs = words.insertIdx k copy := by rw [henc]
  apply h.keep hbehind (by rw [henc]) (.refl _)
  · rw [hinstrs, List.take_insertIdx_eq_take_of_le _ _ _ _ (Nat.le_refl k), List.map_take, hwords,
      ← List.map_take, List.take_set_of_le (Nat.le_refl k)]
  · intro i word' hi hword'
    rw [hinstrs, List.getElem?_insertIdx] at hword'
    split at hword'
    case isTrue hlt => omega
    case isFalse =>
      split at hword'
      case isTrue =>
        split at hword'
        case isTrue => rw [← Option.some.inj hword', hcopy]
        case isFalse => simp at hword'
      case isFalse => exact hrest' (i - 1) word' (by omega) hword'
  · intro j hj
    rw [henc] at hj
    obtain rfl := Option.some.inj hj
    have hlt : k < words.length := by omega
    refine ⟨words[k], ?_, .inr ⟨fun i branch hbranch => ?_, fun label target hlabel => ?_⟩⟩
    · rw [hinstrs, List.getElem?_insertIdx_of_gt (Nat.lt_succ_self k)]
      exact List.getElem?_eq_getElem hlt
    · exact Nat.lt_succ_of_lt (hbehind.1 i branch hbranch)
    · exact Nat.le_succ_of_le (hbehind.2 label target hlabel)

/-- A label is added or pinned, or the last instruction is forgotten. -/
lemma Emission.Inv.relabel (h : emission.Inv) {pins : Nat → Option (List Instruction)}
    (hinstrs : enc.instrs = emission.enc.instrs)
    (husers : enc.labels.users = emission.enc.labels.users)
    (hkeep : ∀ label target : Nat,
      emission.enc.labels.labels[label]? = some (Label.pinned target) →
      enc.labels.labels[label]? = some (Label.pinned target) ∧ pins label = emission.pins label)
    (hnew : ∀ label target : Nat, enc.labels.labels[label]? = some (Label.pinned target) →
      emission.enc.labels.labels[label]? = some (Label.pinned target) ∨
        target = emission.enc.instrs.length ∧ pins label = some emission.enc.instrs)
    (hlast : ∀ j, enc.lastInstr = some j → emission.enc.lastInstr = some j ∧
      (emission.LastSealed ∨ ∀ label target : Nat,
        enc.labels.labels[label]? = some (Label.pinned target) →
        emission.enc.labels.labels[label]? = some (Label.pinned target))) :
    ({ emission with enc, pins } : Emission).Inv where
  last := by
    intro j hj
    obtain ⟨hj, hlast⟩ := hlast j hj
    obtain ⟨word, hword, hsealed⟩ := h.last j hj
    refine ⟨word, by rw [hinstrs, hword], ?_⟩
    obtain hlast | hlast := hlast
    · exact .inl (hlast j word hj hword)
    · exact hsealed.imp_right fun hbehind =>
        ⟨hbehind.1, fun label target hlabel => hbehind.2 label target (hlast label target hlabel)⟩
  pinned := by
    intro label target hlabel
    rw [hinstrs]
    obtain hlabel | ⟨rfl, hpins⟩ := hnew label target hlabel
    · obtain ⟨words, hpins, hwords⟩ := h.pinned label target hlabel
      exact ⟨words, (hkeep label target hlabel).2.trans hpins, hwords⟩
    · exact ⟨_, hpins, rfl, by rw [List.take_length]⟩
  nodup := by
    rw [husers]
    exact h.nodup
  users := by
    rw [husers]
    exact h.users
  emitted := by
    intro i branch hbranch
    obtain ⟨word, hword, hstatus⟩ := h.emitted i branch hbranch
    refine ⟨word, by rw [hinstrs, hword], ?_⟩
    unfold Waits HasOffset
    rw [husers]
    obtain hwaits | ⟨huser, target, offset, hlabel, hoffset⟩ := hstatus
    · exact .inl hwaits
    · exact .inr ⟨huser, target, offset, (hkeep _ _ hlabel).1, hoffset⟩
  complete := by
    rw [hinstrs]
    exact h.complete

end

lemma mergeCopyInstrs_replaces {enc enc' : InstrEncoder} {result : Reg} {value : TypedProvider}
    {instr : Nat} (h : enc.mergeCopyInstrs result value = .ok (some (instr, enc'))) :
    ∃ k last word, enc.lastInstr = some k ∧ enc.instrs[k]? = some last ∧ ¬ last.op.Sealed ∧
      word.op.isBranch = false ∧ enc' = { enc with instrs := enc.instrs.set k word } := by
  unfold InstrEncoder.mergeCopyInstrs at h
  split at h
  case h_2 => simp at h
  case h_1 value reg lastInstr hlastInstr =>
    split at h
    case h_1 => simp at h
    case h_3 => simp at h
    case h_2 instrOffset last lastValue hword =>
      split at h
      case isFalse => simp at h
      case isTrue =>
        obtain ⟨word, hcopy2, h⟩ := bind_eq_ok.1 h
        obtain ⟨rfl, rfl⟩ := Prod.mk.inj (Option.some.inj (Except.ok.inj h))
        refine ⟨lastInstr, _, word, hlastInstr, hword, fun hsealed => ?_, ?_, rfl⟩
        · exact absurd hsealed.1 (by simp [Op.resultReg])
        · rw [copy2Ext_ok hcopy2]
          rfl

lemma fuseI32Eqz_replaces {enc enc' : InstrEncoder} {space : Reg → RegisterSpace}
    {input : TypedProvider} (h : enc.fuseI32Eqz space input = .ok (some enc')) :
    ∃ k last word, enc.lastInstr = some k ∧ enc.instrs[k]? = some last ∧ ¬ last.op.Sealed ∧
      word.op.isBranch = false ∧ enc' = { enc with instrs := enc.instrs.set k word } := by
  cases input with
  | const value =>
    unfold InstrEncoder.fuseI32Eqz at h
    simp [pure, Except.pure] at h
  | register input =>
    cases hlast : enc.lastInstr with
    | none =>
      unfold InstrEncoder.fuseI32Eqz at h
      rw [hlast] at h
      simp [pure, Except.pure] at h
    | some k =>
      cases hword : enc.instrs[k]? with
      | none =>
        unfold InstrEncoder.fuseI32Eqz at h
        rw [hlast] at h
        dsimp only at h
        rw [hword] at h
        simp at h
      | some last =>
        obtain ⟨fused, hfused, hresult, _, rfl⟩ := fuseI32Eqz_ok h hlast hword
        refine ⟨k, last, _, rfl, hword, fun hsealed => ?_, ?_, by rw [hlast]⟩
        · rw [hsealed.1] at hresult
          simp at hresult
        · unfold InstrEncoder.fuseEqzOp at hfused
          split at hfused
          case h_1 => obtain ⟨op, _, rfl⟩ := Option.map_eq_some_iff.1 hfused; rfl
          case h_2 => obtain ⟨op, _, rfl⟩ := Option.map_eq_some_iff.1 hfused; rfl
          case h_3 => simp at hfused

/-- An instruction whose result is given another register has a result. -/
lemma relinkResult_ok {lenResults : Op → Nat} {newResult oldResult : Reg} {op op' : Op}
    (h : op.relinkResult lenResults newResult oldResult = some op') :
    ¬ op.Sealed ∧ op'.isBranch = false := by
  have hresult : (op.resultReg.isSome ∨ op.callResults.isSome) ∧ op' = op.setResult newResult := by
    unfold Op.relinkResult at h
    split at h
    case h_1 results hcall =>
      split at h
      case isTrue => exact ⟨.inr (by rw [hcall]; rfl), (Option.some.inj h).symm⟩
      case isFalse => simp at h
    case h_2 result _ hresult =>
      split at h
      case isTrue => exact ⟨.inl (by rw [hresult]; rfl), (Option.some.inj h).symm⟩
      case isFalse => simp at h
    case h_3 => simp at h
  obtain ⟨hsome, rfl⟩ := hresult
  have hsealed : ¬ op.Sealed := by
    rintro ⟨hresult, hcall⟩
    simp [hresult, hcall] at hsome
  refine ⟨hsealed, Bool.eq_false_iff.2 fun hisBranch => hsealed (Op.sealed_of_isBranch ?_)⟩
  rwa [Op.isBranch_setResult] at hisBranch

lemma relinkLocalSet_ok {enc enc' : InstrEncoder} {lenResults : Op → Nat} {instrOffset : Nat}
    {«local» value : Reg} {preserved : Option Reg} {fuelInfo : FuelInfo}
    (h : enc.relinkLocalSet lenResults instrOffset «local» value preserved fuelInfo =
      .ok (some enc')) :
    ∃ k last word, enc.lastInstr = some k ∧ enc.instrs[k]? = some last ∧ ¬ last.op.Sealed ∧
      word.op.isBranch = false ∧
      (enc' = { enc with instrs := enc.instrs.set k word } ∨
      ∃ (copy : Instruction) (words : List Instruction), copy.op.isBranch = false ∧
        words.map unfueled = (enc.instrs.set k word).map unfueled ∧
        enc' = { enc with instrs := words.insertIdx k copy, lastInstr := some (k + 1) }) := by
  unfold InstrEncoder.relinkLocalSet at h
  cases hlast : enc.lastInstr with
  | none =>
    rw [hlast] at h
    simp [pure, Except.pure] at h
  | some k =>
    rw [hlast] at h
    dsimp only at h
    cases hword : enc.instrs[k]? with
    | none =>
      rw [hword] at h
      simp at h
    | some last =>
      rw [hword] at h
      dsimp only at h
      cases hrelink : last.op.relinkResult lenResults «local» value with
      | none =>
        rw [hrelink] at h
        simp [pure, Except.pure] at h
      | some op =>
        rw [hrelink] at h
        dsimp only at h
        obtain ⟨hsealed, hother⟩ := relinkResult_ok hrelink
        refine ⟨k, last, ⟨last.instrOffset, op⟩, rfl, hword, hsealed, hother, ?_⟩
        cases preserved with
        | none => exact .inl (Option.some.inj (Except.ok.inj h)).symm
        | some preserved =>
          obtain ⟨enc₁, hbump, h⟩ := bind_eq_ok.1 h
          obtain ⟨⟨shifted, enc₂⟩, hpush, h⟩ := bind_eq_ok.1 h
          obtain rfl := Option.some.inj (Except.ok.inj h)
          unfold InstrEncoder.pushBefore at hpush
          split at hpush
          case isFalse => simp at hpush
          case isTrue =>
            obtain ⟨rfl, rfl⟩ := Prod.mk.inj (Except.ok.inj hpush)
            refine .inr ⟨⟨instrOffset, .copy preserved «local»⟩, enc₁.instrs, rfl,
              bumpFuelConsumption_ok hbump, ?_⟩
            rw [bumpFuelConsumption_instrs hbump]

lemma newLabel_pinned (enc : InstrEncoder) (label target : Nat) :
    enc.newLabel.2.labels.labels[label]? = some (Label.pinned target) ↔
      enc.labels.labels[label]? = some (Label.pinned target) := by
  show (enc.labels.labels ++ [.unpinned])[label]? = _ ↔ _
  rw [List.getElem?_append]
  split
  case isTrue => rfl
  case isFalse hge =>
    have hnone : enc.labels.labels[label]? = none := List.getElem?_eq_none (Nat.le_of_not_lt hge)
    rw [hnone]
    cases label - enc.labels.labels.length <;> simp

lemma pinLabelIfUnpinned_ok {enc enc' : InstrEncoder} {label : Nat}
    (h : enc.pinLabelIfUnpinned label = .ok enc') :
    enc.labels.labels[label]? = some .unpinned ∧
      enc' = { enc with
        labels.labels := enc.labels.labels.set label (.pinned enc.instrs.length) } ∨
    (∃ target, enc.labels.labels[label]? = some (Label.pinned target)) ∧ enc' = enc := by
  obtain ⟨next, hnext, h⟩ := bind_eq_ok.1 h
  obtain rfl := nextInstr_ok hnext
  obtain ⟨labels, hlabels, h⟩ := bind_eq_ok.1 h
  obtain rfl := Except.ok.inj h
  unfold LabelRegistry.tryPinLabel at hlabels
  split at hlabels
  case h_1 hlabel =>
    rw [← Except.ok.inj hlabels]
    exact .inl ⟨hlabel, rfl⟩
  case h_2 target hlabel =>
    rw [← Except.ok.inj hlabels]
    exact .inr ⟨⟨target, hlabel⟩, rfl⟩
  case h_3 => simp at hlabels

/-- A label is pinned behind a sealed instruction. -/
lemma Emission.Inv.pin {emission : Emission} (h : emission.Inv) (hlast : emission.LastSealed)
    {enc : InstrEncoder} {label : Nat} (heq : emission.enc.pinLabelIfUnpinned label = .ok enc) :
    (emission.pin enc label).Inv := by
  obtain ⟨hlabel, rfl⟩ | ⟨⟨target, hlabel⟩, rfl⟩ := pinLabelIfUnpinned_ok heq
  · have hlt := (List.getElem?_eq_some_iff.1 hlabel).1
    refine h.relabel rfl rfl (fun label' target hpinned => ?_) (fun label' target hpinned => ?_)
      fun j hj => ⟨hj, .inl hlast⟩
    · have hne : label ≠ label' := by
        rintro rfl
        rw [hlabel] at hpinned
        simp at hpinned
      rw [if_pos hlabel]
      exact ⟨by rwa [List.getElem?_set_ne hne], Function.update_of_ne hne.symm _ _⟩
    · by_cases heq : label = label'
      · rw [← heq, List.getElem?_set_self hlt] at hpinned
        rw [if_pos hlabel, ← heq]
        exact .inr ⟨(Label.pinned.inj (Option.some.inj hpinned)).symm, Function.update_self _ _ _⟩
      · rw [List.getElem?_set_ne heq] at hpinned
        exact .inl hpinned
  · have hne : ¬ emission.enc.labels.labels[label]? = some .unpinned := by simp [hlabel]
    rw [Emission.pin, if_neg hne]
    exact h

/-- A branch behind the other words. -/
lemma Emission.Inv.emitBehind {emission : Emission} {enc enc₁ : InstrEncoder}
    {consts : FuncLocalConsts} {label : Nat} {offset : BranchOffset} {kind : BranchKind}
    {words : List Instruction} {word : Instruction} (h : emission.Inv)
    (hresolve : emission.enc.tryResolveLabelFor label emission.enc.instrs.length =
      .ok (offset, enc₁))
    (hlabels : enc.labels = enc₁.labels) (hext : emission.consts.Extends consts)
    (hinstrs : enc.instrs = words ++ [word])
    (hwords : words.map unfueled = emission.enc.instrs.map unfueled)
    (hkind : kind.Word consts offset word.op)
    (hlast : enc.lastInstr = some emission.enc.instrs.length ∨
      enc.lastInstr = emission.enc.lastInstr ∧ emission.LastSealed) :
    (emission.emit enc consts emission.enc.instrs.length label kind).Inv := by
  have hlen : words.length = emission.enc.instrs.length := by
    simpa using congrArg List.length hwords
  have htake : (enc.instrs.take emission.enc.instrs.length).map unfueled =
      (emission.enc.instrs.take emission.enc.instrs.length).map unfueled := by
    rw [hinstrs, ← hlen, List.take_left, hlen, List.take_length, hwords]
  have hword : enc.instrs[emission.enc.instrs.length]? = some word := by
    rw [hinstrs, ← hlen, List.getElem?_concat_length]
  refine h.emit h.behind_length hresolve hlabels hext htake hword hkind ?_ ?_
  · intro i word' hi hword'
    rw [hinstrs, List.getElem?_eq_none (by simp; omega)] at hword'
    simp at hword'
  · intro j hj
    obtain hlast | ⟨hlast, hsealed⟩ := hlast
    · obtain rfl := Option.some.inj (hlast.symm.trans hj)
      exact ⟨word, hword, hkind.sealed⟩
    · rw [hlast] at hj
      obtain ⟨old, hold, _⟩ := h.last j hj
      obtain ⟨word', hword', heq⟩ := word_of_take htake (List.getElem?_eq_some_iff.1 hold).1 hold
      exact ⟨word', hword', sealed_of_unfueled heq (hsealed j old hj hold)⟩

lemma not_sealed_of_fusedCond {space : Reg → RegisterSpace} {eqz : Bool} {condition : Reg} {op : Op}
    {cond : BranchCond} (h : fusedCond space eqz condition op = some cond) : ¬ op.Sealed := by
  intro hsealed
  obtain ⟨cmp, _, h⟩ := Option.bind_eq_some_iff.1 h
  rw [hsealed.1, if_pos (.inl (by simp))] at h
  simp at h

/-- Every operation of the translator keeps the invariant. -/
lemma emits_inv {emission emission' : Emission} (h : Emits emission emission')
    (hinv : emission.Inv) : emission'.Inv := by
  cases h with
  | push other eq =>
    obtain ⟨rfl, -⟩ := pushInstr_ok eq
    exact hinv.append [_] (by simpa using other) rfl rfl (.inr ⟨by simp, rfl⟩)
  | append other eq =>
    obtain ⟨rfl, -⟩ := appendInstr_ok eq
    exact hinv.append [_] (by simpa using other) rfl rfl (.inl rfl)
  | bumpFuel eq =>
    have henc := bumpFuelConsumption_instrs eq
    refine hinv.append [] (by simp) (by rw [henc]) ?_ (.inl (by rw [henc]))
    rw [List.append_nil]
    exact bumpFuelConsumption_ok eq
  | alloc eq =>
    obtain ⟨hext, _⟩ := FuncLocalConsts.alloc_ok eq
    refine hinv.keep hinv.behind_length rfl hext rfl ?_ hinv.last
    intro i word hi hword
    rw [List.getElem?_eq_none hi] at hword
    simp at hword
  | mergeCopy eq =>
    obtain ⟨k, last, word, hlast, hword, hsealed, hother, henc⟩ := mergeCopyInstrs_replaces eq
    exact hinv.replaceLast hlast hword hsealed hother henc
  | fuseEqz eq =>
    obtain ⟨k, last, word, hlast, hword, hsealed, hother, henc⟩ := fuseI32Eqz_replaces eq
    exact hinv.replaceLast hlast hword hsealed hother henc
  | relink eq =>
    obtain ⟨k, last, word, hlast, hword, hsealed, hother, henc | ⟨copy, words, hcopy, hwords, henc⟩⟩ :=
      relinkLocalSet_ok eq
    · exact hinv.replaceLast hlast hword hsealed hother henc
    · exact hinv.shiftLast hlast hword hsealed hother hcopy hwords henc
  | newLabel =>
    exact hinv.relabel rfl rfl
      (fun label target hlabel => ⟨(newLabel_pinned _ label target).2 hlabel, rfl⟩)
      (fun label target hlabel => .inl ((newLabel_pinned _ label target).1 hlabel))
      fun j hj => ⟨hj, .inr fun label target => (newLabel_pinned _ label target).1⟩
  | resetLast =>
    exact hinv.relabel rfl rfl (fun _ _ hlabel => ⟨hlabel, rfl⟩) (fun _ _ hlabel => .inl hlabel)
      (by simp [InstrEncoder.resetLastInstr])
  | pin last eq => exact hinv.pin last eq
  | branch resolve eq =>
    have hresolve := tryResolveLabel_ok resolve
    have henc := tryResolveLabelFor_labels hresolve
    obtain ⟨enc₁, hbump, hpush⟩ := bind_eq_ok.1 eq
    obtain ⟨rfl, rfl⟩ := pushInstr_ok hpush
    have hwords := bumpFuelConsumption_ok hbump
    rw [henc] at hwords
    have hlen : enc₁.instrs.length = emission.enc.instrs.length := by
      simpa using congrArg List.length hwords
    rw [hlen]
    refine hinv.emitBehind hresolve ?_ (.refl _) rfl hwords rfl (.inl rfl)
    rw [bumpFuelConsumption_instrs hbump]
  | @branchCond _ _ _ _ _ _ emitted _ _ eq cond_eq =>
    obtain ⟨k, cond, word, enc₁, offset, hemitted, hresolve, hext, hbranches, hpos⟩ :=
      encodeBranch_ok eq
    obtain ⟨rfl, rfl⟩ := Prod.mk.inj (cond_eq.symm.trans hemitted)
    obtain ⟨rfl, rfl⟩ | ⟨hlast, ⟨last, hword, hfused⟩, rfl⟩ := hpos
    · exact hinv.emitBehind hresolve rfl hext rfl rfl hbranches (.inl rfl)
    · -- a fused branch takes the place of a comparison, which has a result and so is not sealed
      obtain ⟨hbehind, hrest⟩ := hinv.last_behind hlast hword (not_sealed_of_fusedCond hfused)
      have hk := (List.getElem?_eq_some_iff.1 hword).1
      refine hinv.emit hbehind hresolve rfl hext ?_ (List.getElem?_set_self hk) hbranches ?_ ?_
      · rw [List.take_set_of_le (Nat.le_refl _)]
      · intro i word' hi hword'
        rw [List.getElem?_set_ne (Nat.ne_of_lt hi)] at hword'
        exact hrest i word' (Nat.le_of_lt hi) hword'
      · intro j hj
        rw [tryResolveLabelFor_labels hresolve] at hj
        obtain rfl := Option.some.inj (hlast.symm.trans hj)
        have hkind : (BranchKind.cond emitted).Word _ offset word.op := hbranches
        exact ⟨word, List.getElem?_set_self hk, hkind.sealed⟩
  | target last uncond resolve word eq =>
    have hresolve := tryResolveLabel_ok resolve
    have henc := tryResolveLabelFor_labels hresolve
    obtain ⟨rfl, rfl⟩ := appendInstr_ok eq
    rw [henc]
    exact hinv.emitBehind hresolve rfl (.refl _) rfl rfl word (.inr ⟨rfl, last⟩)

lemma runs_inv {n : Nat} {emission : Emission} (h : Runs.Steps Emits n .start emission) :
    emission.Inv :=
  h.invariant (I := Emission.Inv) (fun _ _ hstep => emits_inv hstep) Emission.Inv.start

end Translator

end MotokoDebugger
