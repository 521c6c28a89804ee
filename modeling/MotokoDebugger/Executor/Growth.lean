import MotokoDebugger.Lib.Runs
import MotokoDebugger.Lib.StateExcept
import MotokoDebugger.Module.Header

/-!
# The growth of a memory

What the growth of a memory (`memory/mod.rs`, `memory/buffer.rs`) can come to, on a platform whose
pointers have 64 bits.

* `MemoryGrowth`: the ways out of a growth, each with its condition.
* `MemoryEntity.Reached`: the memories that growths and writes lead to.
* `growsExactly_iff`: a growth either grows the memory exactly or leaves it alone iff no static
  buffer is too small for a growth that every check permits.
-/

namespace MotokoDebugger

open StateExcept Runs

variable {T : Type}

/-! ## The limiter and the fuel -/

/-- The answer of the limiter to a request, and the host state after it. -/
def limiterAnswer (limiter : Option (ResourceLimiter T))
    (ask : ResourceLimiter T → T → Except Unit Bool × T) (data : T) :
    Except EntityGrowError Unit × T :=
  match limiter with
  | none => (.ok (), data)
  | some limiter =>
    match ask limiter data with
    | (.ok true, data) => (.ok (), data)
    | (.ok false, data) => (.error .invalidGrow, data)
    | (.error _, data) => (.error (.trapCode .growthOperationLimited), data)

/-- The host state after the limiter is told of a failure. -/
def limiterNotified (limiter : Option (ResourceLimiter T)) (notify : ResourceLimiter T → T → T)
    (data : T) : T :=
  match limiter with
  | none => data
  | some limiter => notify limiter data

section Limiter

variable {E α : Type} {limiter : Option (ResourceLimiter T)}
  {ask : ResourceLimiter T → T → Except Unit Bool × T} {s : Growing E T} {data : T}

lemma askLimiter_ok (h : limiterAnswer limiter ask s.data = (.ok (), data)) :
    askLimiter limiter ask s = .ok () { s with data } := by
  cases limiter with
  | none =>
    obtain ⟨-, rfl⟩ := Prod.mk.inj h
    rfl
  | some limiter =>
    rw [askLimiter, get_bind]
    dsimp only [limiterAnswer] at h ⊢
    split at h
    case h_1 data' hask =>
      obtain ⟨-, rfl⟩ := Prod.mk.inj h
      rw [hask]
      rfl
    case h_2 | h_3 => cases h

lemma askLimiter_error {error : EntityGrowError}
    (h : limiterAnswer limiter ask s.data = (.error error, data)) :
    askLimiter limiter ask s = .error error { s with data } := by
  cases limiter with
  | none => cases h
  | some limiter =>
    rw [askLimiter, get_bind]
    dsimp only [limiterAnswer] at h ⊢
    split at h
    case h_1 => cases h
    case h_2 data' hask | h_3 data' hask =>
      obtain ⟨herror, rfl⟩ := Prod.mk.inj h
      obtain rfl := Except.error.inj herror
      rw [hask]
      rfl

lemma notifyLimiter_apply (notify : ResourceLimiter T → T → T) (error : EntityGrowError) :
    (notifyLimiter limiter notify error : GrowM E T α) s =
      .error error { s with data := limiterNotified limiter notify s.data } := by
  cases limiter with
  | none => rfl
  | some limiter => rfl

end Limiter

/-- Is the fuel enough for the costs? -/
def Fuel.Affords (fuel : Fuel) (f : FuelCosts → Nat) : Prop :=
  fuel.enabled = true → f fuel.costs ≤ fuel.remaining

lemma Fuel.consumeFuel_of_affords {fuel : Fuel} {f : FuelCosts → Nat} (h : fuel.Affords f) :
    (∃ fuel', fuel.consumeFuel f = .ok fuel') ∨
      fuel.consumeFuel f = .error .fuelMeteringDisabled := by
  unfold consumeFuel
  by_cases henabled : fuel.enabled = true
  · rw [if_pos henabled, consumeFuelUnchecked, if_pos (h henabled)]
    exact .inl ⟨_, rfl⟩
  · rw [if_neg henabled]
    exact .inr rfl

lemma Fuel.consumeFuelIf_of_affords {fuel : Fuel} {f : FuelCosts → Nat} (h : fuel.Affords f) :
    ∃ fuel', fuel.consumeFuelIf f = .ok fuel' := by
  obtain ⟨fuel', hpaid⟩ | hdisabled := consumeFuel_of_affords h
  · exact ⟨fuel', by rw [consumeFuelIf, hpaid]⟩
  · exact ⟨fuel, by rw [consumeFuelIf, hdisabled]⟩

lemma Fuel.consumeFuel_of_not_affords {fuel : Fuel} {f : FuelCosts → Nat}
    (h : ¬fuel.Affords f) : fuel.consumeFuel f = .error .outOfFuel := by
  simp only [Affords, Classical.not_imp] at h
  rw [consumeFuel, if_pos h.1, consumeFuelUnchecked, if_neg h.2]

lemma Fuel.consumeFuelIf_of_not_affords {fuel : Fuel} {f : FuelCosts → Nat}
    (h : ¬fuel.Affords f) : fuel.consumeFuelIf f = .error .outOfFuel := by
  rw [consumeFuelIf, consumeFuel_of_not_affords h]

/-! ## Memories -/

namespace MemoryEntity

/-- The number of pages that the memory may grow to. -/
def limit (memory : MemoryEntity) : Nat := min maxPages (memory.maximumPages.getD maxPages)

/-- What the limiter is asked. -/
def askGrowing (memory : MemoryEntity) (additional : Nat) (limiter : ResourceLimiter T) :
    T → Except Unit Bool × T :=
  limiter.memoryGrowing (memory.currentPages * bytesPerPage)
    ((pagesCheckedAdd memory.currentPages additional).getD maxPages * bytesPerPage)
    (some (memory.maximumPages.getD maxPages * bytesPerPage))

/-- The memory with more pages. -/
def grown (memory : MemoryEntity) (newPages : Nat) : MemoryEntity :=
  { memory with
    bytes := memory.bytes ++ List.replicate (newPages * bytesPerPage - memory.bytes.length) 0
    currentPages := newPages }

/-- The buffer does not fit the new size, which is a panic. -/
def Unfit (memory : MemoryEntity) (newSize : Nat) : Prop :=
  newSize < memory.bytes.length ∨ ∃ capacity, memory.staticCapacity = some capacity ∧
    capacity < newSize

lemma growBytes_of_unfit {memory : MemoryEntity} {newSize : Nat} (h : memory.Unfit newSize) :
    memory.growBytes newSize = none := by
  unfold growBytes
  by_cases hlen : newSize < memory.bytes.length
  · rw [if_pos hlen]
  · obtain hshrinks | ⟨capacity, hstatic, hlt⟩ := h
    · exact absurd hshrinks hlen
    · rw [if_neg hlen]
      simp only [hstatic, if_pos hlt]

lemma growBytes_of_fit {memory : MemoryEntity} {newSize : Nat} (h : ¬memory.Unfit newSize) :
    memory.growBytes newSize =
      some (memory.bytes ++ List.replicate (newSize - memory.bytes.length) 0) := by
  simp only [Unfit, not_or, not_exists, not_and] at h
  unfold growBytes
  rw [if_neg h.1]
  cases hstatic : memory.staticCapacity with
  | none => rfl
  | some capacity => simp only [if_neg (h.2 capacity hstatic)]

end MemoryEntity

/-- The costs of new pages. -/
def pagesCosts (additional : Nat) (costs : FuelCosts) : Nat :=
  costs.fuelForBytes (additional * bytesPerPage)

open MemoryEntity in
/-- The ways out of the growth of a memory. -/
inductive MemoryGrowth (limiter : Option (ResourceLimiter T)) (additional : Nat)
    (s : Growing MemoryEntity T) : EStateM.Result EntityGrowError (Growing MemoryEntity T) Nat → Prop
  where
  | nothing (hzero : additional = 0) : MemoryGrowth limiter additional s (.ok s.entity.currentPages s)
  | notPages (hlarge : maxPages < additional) :
    MemoryGrowth limiter additional s (.error .invalidGrow s)
  | refused {error : EntityGrowError} {data : T} (hpos : 0 < additional)
    (hpages : additional ≤ maxPages)
    (hanswer : limiterAnswer limiter (s.entity.askGrowing additional) s.data = (.error error, data)) :
    MemoryGrowth limiter additional s (.error error { s with data })
  | overLimit {data : T} (hpos : 0 < additional) (hpages : additional ≤ maxPages)
    (hanswer : limiterAnswer limiter (s.entity.askGrowing additional) s.data = (.ok (), data))
    (hlimit : s.entity.limit < s.entity.currentPages + additional) :
    MemoryGrowth limiter additional s
      (.error .invalidGrow { s with data := limiterNotified limiter (·.memoryGrowFailed) data })
  | outOfFuel {data : T} (hpos : 0 < additional) (hpages : additional ≤ maxPages)
    (hanswer : limiterAnswer limiter (s.entity.askGrowing additional) s.data = (.ok (), data))
    (hlimit : s.entity.currentPages + additional ≤ s.entity.limit)
    (hfuel : ¬s.fuel.Affords (pagesCosts additional)) :
    MemoryGrowth limiter additional s
      (.error (.trapCode .outOfFuel)
        { s with data := limiterNotified limiter (·.memoryGrowFailed) data })
  | panic {data : T} {fuel : Fuel} (hpos : 0 < additional) (hpages : additional ≤ maxPages)
    (hanswer : limiterAnswer limiter (s.entity.askGrowing additional) s.data = (.ok (), data))
    (hlimit : s.entity.currentPages + additional ≤ s.entity.limit)
    (hfuel : s.fuel.Affords (pagesCosts additional))
    (hunfit : s.entity.Unfit ((s.entity.currentPages + additional) * bytesPerPage)) :
    MemoryGrowth limiter additional s (.error .panic { s with data, fuel })
  | grown {data : T} {fuel : Fuel} (hpos : 0 < additional) (hpages : additional ≤ maxPages)
    (hanswer : limiterAnswer limiter (s.entity.askGrowing additional) s.data = (.ok (), data))
    (hlimit : s.entity.currentPages + additional ≤ s.entity.limit)
    (hfuel : s.fuel.Affords (pagesCosts additional))
    (hfit : ¬s.entity.Unfit ((s.entity.currentPages + additional) * bytesPerPage)) :
    MemoryGrowth limiter additional s (.ok s.entity.currentPages
      ⟨s.entity.grown (s.entity.currentPages + additional), fuel, data⟩)

/-- Every growth takes one of the ways out. -/
lemma memoryGrowth (limiter : Option (ResourceLimiter T)) (additional : Nat)
    (s : Growing MemoryEntity T) :
    MemoryGrowth limiter additional s (MemoryEntity.grow limiter additional s) := by
  unfold MemoryEntity.grow
  rw [get_bind]
  dsimp only
  by_cases hzero : additional = 0
  · rw [if_pos hzero]
    exact .nothing hzero
  rw [if_neg hzero]
  by_cases hlarge : maxPages < additional
  · rw [if_pos hlarge]
    exact .notPages hlarge
  rw [if_neg hlarge]
  have hpos : 0 < additional := by omega
  have hpages : additional ≤ maxPages := by omega
  obtain ⟨⟨error | _, data⟩, hanswer⟩ :
      ∃ answer, limiterAnswer limiter (s.entity.askGrowing additional) s.data = answer := ⟨_, rfl⟩
  · show MemoryGrowth limiter additional s
      ((askLimiter limiter (s.entity.askGrowing additional) >>= _) s)
    rw [bind_error (askLimiter_error hanswer)]
    exact .refused hpos hpages hanswer
  show MemoryGrowth limiter additional s
    ((askLimiter limiter (s.entity.askGrowing additional) >>= _) s)
  rw [bind_ok (askLimiter_ok hanswer)]
  by_cases hadd : s.entity.currentPages + additional ≤ maxPages
  · simp only [pagesCheckedAdd, if_pos hadd]
    by_cases hmax : s.entity.maximumPages.getD maxPages < s.entity.currentPages + additional
    · rw [if_pos hmax, notifyLimiter_apply]
      refine .overLimit hpos hpages hanswer ?_
      rw [MemoryEntity.limit]
      omega
    rw [if_neg hmax, get_bind]
    have hlimit : s.entity.currentPages + additional ≤ s.entity.limit := by
      rw [MemoryEntity.limit]
      omega
    by_cases hfuel : s.fuel.Affords (pagesCosts additional)
    · obtain ⟨fuel, hconsume⟩ := Fuel.consumeFuelIf_of_affords hfuel
      unfold pagesCosts at hconsume
      dsimp only
      rw [hconsume]
      dsimp only
      rw [modify_bind]
      by_cases hfit : s.entity.Unfit ((s.entity.currentPages + additional) * bytesPerPage)
      · rw [MemoryEntity.growBytes_of_unfit hfit]
        exact .panic hpos hpages hanswer hlimit hfuel hfit
      · rw [MemoryEntity.growBytes_of_fit hfit]
        exact .grown hpos hpages hanswer hlimit hfuel hfit
    · have hconsume := Fuel.consumeFuelIf_of_not_affords hfuel
      unfold pagesCosts at hconsume
      dsimp only
      rw [hconsume]
      dsimp only
      rw [notifyLimiter_apply]
      exact .outOfFuel hpos hpages hanswer hlimit hfuel
  · simp only [pagesCheckedAdd, if_neg hadd]
    rw [notifyLimiter_apply]
    refine .overLimit hpos hpages hanswer ?_
    rw [MemoryEntity.limit]
    omega

/-! ## The memories there are -/

/-- `MemoryType::new`. It does not compare the initial size with the maximum. -/
def MemoryType.new (initial : Nat) (maximum : Option Nat) : Option MemoryType :=
  if initial ≤ maxPages ∧ maximum.getD 0 ≤ maxPages then some ⟨initial, maximum⟩ else none

/-- `MemoryError`, as far as a new memory returns it. -/
inductive MemoryError where
  | outOfBoundsAllocation
  | invalidStaticBufferSize
  | limiter
deriving Repr, DecidableEq

namespace MemoryEntity

/-- Asks the limiter for a new memory. -/
def askNew (limiter : Option (ResourceLimiter T)) (ty : MemoryType) (data : T) :
    Except MemoryError Unit × T :=
  match limiter with
  | none => (.ok (), data)
  | some limiter =>
    match limiter.memoryGrowing 0 (ty.initialPages * bytesPerPage)
      (some (ty.maximumPages.getD maxPages * bytesPerPage)) data with
    | (.ok true, data) => (.ok (), data)
    | (.ok false, data) => (.error .outOfBoundsAllocation, data)
    | (.error _, data) => (.error .limiter, data)

/-- A memory of zeros. -/
def zeroed (ty : MemoryType) (staticCapacity : Option Nat) : MemoryEntity :=
  ⟨List.replicate (ty.initialPages * bytesPerPage) 0, ty.initialPages, ty.maximumPages,
    staticCapacity⟩

/-- `MemoryEntity::new`. -/
def new (limiter : Option (ResourceLimiter T)) (ty : MemoryType) (data : T) :
    Except MemoryError MemoryEntity × T :=
  match askNew limiter ty data with
  | (.error error, data) => (.error error, data)
  | (.ok (), data) => (.ok (zeroed ty none), data)

/-- `MemoryEntity::new_static` over a buffer of `bufLen` bytes. -/
def newStatic (limiter : Option (ResourceLimiter T)) (ty : MemoryType) (bufLen : Nat) (data : T) :
    Except MemoryError MemoryEntity × T :=
  match askNew limiter ty data with
  | (.error error, data) => (.error error, data)
  | (.ok (), data) =>
    if bufLen < ty.initialPages * bytesPerPage then (.error .invalidStaticBufferSize, data)
    else (.ok (zeroed ty (some bufLen)), data)

/-- A new memory, over the heap or over a static buffer. -/
def IsNew (memory : MemoryEntity) : Prop :=
  ∃ (T : Type) (limiter : Option (ResourceLimiter T)) (data : T) (initial : Nat)
    (maximum : Option Nat) (ty : MemoryType), MemoryType.new initial maximum = some ty ∧
    ((new limiter ty data).1 = .ok memory ∨
      ∃ bufLen, (newStatic limiter ty bufLen data).1 = .ok memory)

/-- What changes a memory: a growth, or writes to its bytes. -/
inductive Step : MemoryEntity → MemoryEntity → Prop
  | grow {T : Type} (limiter : Option (ResourceLimiter T)) (additional value : Nat)
    (s s' : Growing MemoryEntity T) (hgrow : grow limiter additional s = .ok value s') :
    Step s.entity s'.entity
  | write (memory : MemoryEntity) (bytes : List Byte)
    (hlen : bytes.length = memory.bytes.length) : Step memory { memory with bytes }

/-- The memories that growths and writes make of a new one. -/
def Reached (memory : MemoryEntity) : Prop := ∃ start n, IsNew start ∧ Steps Step n start memory

/-- What holds of every memory. -/
structure WellFormed (memory : MemoryEntity) : Prop where
  len : memory.bytes.length = memory.currentPages * bytesPerPage
  pages : memory.currentPages ≤ maxPages
  capacity : ∀ capacity, memory.staticCapacity = some capacity → memory.bytes.length ≤ capacity

lemma IsNew.wellFormed {memory : MemoryEntity} (h : memory.IsNew) : memory.WellFormed := by
  obtain ⟨T, limiter, data, initial, maximum, ty, hty, hnew⟩ := h
  simp only [MemoryType.new, Option.ite_none_right_eq_some, Option.some.injEq] at hty
  have hpages : ty.initialPages ≤ maxPages := by
    rw [← hty.2]
    exact hty.1.1
  have hzeroed : ∀ staticCapacity : Option Nat,
      (∀ capacity, staticCapacity = some capacity → ty.initialPages * bytesPerPage ≤ capacity) →
      WellFormed (zeroed ty staticCapacity) := fun staticCapacity hcapacity =>
    ⟨List.length_replicate, hpages, fun capacity hstatic => by
      show (List.replicate _ _).length ≤ capacity
      rw [List.length_replicate]
      exact hcapacity capacity hstatic⟩
  obtain hheap | ⟨bufLen, hstatic⟩ := hnew
  · unfold new at hheap
    split at hheap
    · cases hheap
    · rw [← Except.ok.inj hheap]
      exact hzeroed none (by simp)
  · unfold newStatic at hstatic
    split at hstatic
    · cases hstatic
    · split at hstatic
      · cases hstatic
      · rw [← Except.ok.inj hstatic]
        refine hzeroed (some bufLen) fun capacity hsome => ?_
        obtain rfl := Option.some.inj hsome
        omega

/-- The bytes after a growth. -/
lemma WellFormed.bytes_grown {memory : MemoryEntity} (h : memory.WellFormed) (additional : Nat) :
    (memory.grown (memory.currentPages + additional)).bytes =
      memory.bytes ++ List.replicate (additional * bytesPerPage) 0 := by
  have hlen := h.len
  rw [grown, hlen, Nat.add_mul, Nat.add_sub_cancel_left]

lemma WellFormed.step {memory memory' : MemoryEntity} (h : memory.WellFormed)
    (hstep : Step memory memory') : memory'.WellFormed := by
  cases hstep with
  | write _ bytes hlen =>
    refine ⟨?_, h.pages, fun capacity hstatic => ?_⟩
    · show bytes.length = _
      rw [hlen, h.len]
    · show bytes.length ≤ capacity
      rw [hlen]
      exact h.capacity capacity hstatic
  | grow limiter additional value s s' hgrow =>
    have hgrowth := memoryGrowth limiter additional s
    rw [hgrow] at hgrowth
    cases hgrowth with
    | nothing => exact h
    | grown _ _ _ hlimit _ hfit =>
      simp only [Unfit, not_or, not_exists, not_and] at hfit
      have hlen : (s.entity.grown (s.entity.currentPages + additional)).bytes.length =
          (s.entity.currentPages + additional) * bytesPerPage := by
        rw [h.bytes_grown, List.length_append, List.length_replicate, h.len, Nat.add_mul]
      refine ⟨hlen, ?_, fun capacity hstatic => ?_⟩
      · show s.entity.currentPages + additional ≤ maxPages
        rw [limit] at hlimit
        omega
      · have hcapacity := hfit.2 capacity hstatic
        show (s.entity.grown _).bytes.length ≤ capacity
        omega

lemma Reached.wellFormed {memory : MemoryEntity} (h : memory.Reached) : memory.WellFormed := by
  obtain ⟨start, n, hnew, hrun⟩ := h
  exact hrun.invariant (fun _ _ hstep hwell => hwell.step hstep) hnew.wellFormed

end MemoryEntity

/-! ## Exact growth -/

/-- A growth either returns the old size and adds zeros behind the old bytes, within the limits, or
returns an error and leaves the memory alone. It does not panic. -/
def GrowsExactly (limiter : Option (ResourceLimiter T)) (additional : Nat)
    (s : Growing MemoryEntity T) : Prop :=
  match MemoryEntity.grow limiter additional s with
  | .ok value s' =>
    value = s.entity.currentPages ∧
      s'.entity = { s.entity with
        bytes := s.entity.bytes ++ List.replicate (additional * bytesPerPage) 0
        currentPages := s.entity.currentPages + additional } ∧
      s'.entity.bytes.length = s'.entity.currentPages * bytesPerPage ∧
      s'.entity.currentPages ≤ maxPages ∧
      (additional ≠ 0 → s'.entity.currentPages ≤ s.entity.maximumPages.getD maxPages)
  | .error error s' => error ≠ .panic ∧ s'.entity = s.entity

/-- Every check of the growth is passed: the number of pages, the limiter, the maximum, the fuel. -/
structure GrowthPermitted (limiter : Option (ResourceLimiter T)) (additional : Nat)
    (s : Growing MemoryEntity T) : Prop where
  pos : 0 < additional
  pages : additional ≤ maxPages
  limiter : (limiterAnswer limiter (s.entity.askGrowing additional) s.data).1 = .ok ()
  limit : s.entity.currentPages + additional ≤ s.entity.limit
  fuel : s.fuel.Affords (pagesCosts additional)

/-- The static buffer, if there is one, has room for the new pages. -/
def MemoryEntity.HasRoom (memory : MemoryEntity) (additional : Nat) : Prop :=
  ∀ capacity, memory.staticCapacity = some capacity →
    (memory.currentPages + additional) * bytesPerPage ≤ capacity

open MemoryEntity

lemma limiterAnswer_error_ne_panic {limiter : Option (ResourceLimiter T)}
    {ask : ResourceLimiter T → T → Except Unit Bool × T} {data data' : T}
    {error : EntityGrowError} (h : limiterAnswer limiter ask data = (.error error, data')) :
    error ≠ .panic := by
  unfold limiterAnswer at h
  split at h
  · cases h
  · split at h
    · cases h
    · cases h
      exact EntityGrowError.noConfusion
    · cases h
      exact EntityGrowError.noConfusion

/-- A memory that is there does not shrink; only a static buffer can be too small. -/
lemma MemoryEntity.WellFormed.unfit_iff {memory : MemoryEntity} (h : memory.WellFormed)
    (additional : Nat) :
    memory.Unfit ((memory.currentPages + additional) * bytesPerPage) ↔
      ¬memory.HasRoom additional := by
  have hlen := h.len
  have hmul : (memory.currentPages + additional) * bytesPerPage =
      memory.currentPages * bytesPerPage + additional * bytesPerPage := Nat.add_mul ..
  simp only [Unfit, HasRoom, not_forall, Nat.not_le, exists_prop]
  constructor
  · intro hunfit
    obtain hshrinks | hstatic := hunfit
    · omega
    · exact hstatic
  · exact .inr

/-- Only a growth that every check permits can be too large for a static buffer. -/
lemma MemoryEntity.WellFormed.grows_iff (limiter : Option (ResourceLimiter T)) (additional : Nat)
    (s : Growing MemoryEntity T) (hwell : s.entity.WellFormed) :
    GrowsExactly limiter additional s ↔
      (GrowthPermitted limiter additional s → s.entity.HasRoom additional) := by
  have hgrowth := memoryGrowth limiter additional s
  unfold GrowsExactly
  generalize MemoryEntity.grow limiter additional s = result at hgrowth
  cases hgrowth with
  | nothing hzero =>
    refine iff_of_true ⟨rfl, ?_, hwell.len, hwell.pages, fun hne => absurd hzero hne⟩
      fun hpermitted => ?_
    · rw [hzero, Nat.zero_mul, List.replicate_zero, List.append_nil, Nat.add_zero]
    · have hpos := hpermitted.pos
      omega
  | notPages hlarge =>
    refine iff_of_true ⟨EntityGrowError.noConfusion, rfl⟩ fun hpermitted => ?_
    have hpages := hpermitted.pages
    omega
  | refused _ _ hanswer =>
    refine iff_of_true ⟨limiterAnswer_error_ne_panic hanswer, rfl⟩ fun hpermitted => ?_
    have hlimiter := hpermitted.limiter
    rw [hanswer] at hlimiter
    cases hlimiter
  | overLimit _ _ _ hlimit =>
    refine iff_of_true ⟨EntityGrowError.noConfusion, rfl⟩ fun hpermitted => ?_
    have hfits := hpermitted.limit
    omega
  | outOfFuel _ _ _ _ hfuel =>
    exact iff_of_true ⟨EntityGrowError.noConfusion, rfl⟩ fun hpermitted =>
      absurd hpermitted.fuel hfuel
  | panic hpos hpages hanswer hlimit hfuel hunfit =>
    have hroom := (hwell.unfit_iff additional).1 hunfit
    refine iff_of_false (fun hexact => hexact.1 rfl) fun hfits => hroom (hfits ?_)
    exact ⟨hpos, hpages, by rw [hanswer], hlimit, hfuel⟩
  | grown hpos hpages hanswer hlimit hfuel hfit =>
    have hroom := not_not.1 (mt (hwell.unfit_iff additional).2 hfit)
    have hbytes := hwell.bytes_grown additional
    rw [limit] at hlimit
    refine iff_of_true ⟨rfl, ?_, ?_, ?_, fun _ => ?_⟩ fun _ => hroom
    · show s.entity.grown _ = _
      rw [← hbytes]
      rfl
    · show (s.entity.grown _).bytes.length = (s.entity.currentPages + additional) * bytesPerPage
      rw [hbytes, List.length_append, List.length_replicate, hwell.len, Nat.add_mul]
    · show s.entity.currentPages + additional ≤ maxPages
      omega
    · show s.entity.currentPages + additional ≤ _
      omega

/-- A growth is exact iff no static buffer is too small for what every check permits. -/
theorem growsExactly_iff (limiter : Option (ResourceLimiter T)) (additional : Nat)
    (s : Growing MemoryEntity T) (h : s.entity.Reached) :
    GrowsExactly limiter additional s ↔
      (GrowthPermitted limiter additional s → s.entity.HasRoom additional) :=
  h.wellFormed.grows_iff limiter additional s

/-- A memory without pages over a static buffer of `bufLen` bytes. -/
def emptyStatic (bufLen : Nat) : MemoryEntity := ⟨[], 0, none, some bufLen⟩

lemma reached_emptyStatic (bufLen : Nat) : (emptyStatic bufLen).Reached := by
  refine ⟨emptyStatic bufLen, 0, ⟨Unit, none, (), 0, none, ⟨0, none⟩, rfl, .inr ⟨bufLen, ?_⟩⟩,
    .refl _⟩
  rw [newStatic, askNew]
  dsimp only
  rw [if_neg (by omega)]
  rfl

/-- A growth by one page, without a limiter and without fuel metering. -/
def growsStatic (bufLen : Nat) : Growing MemoryEntity Unit :=
  ⟨emptyStatic bufLen, ⟨0, false, ⟨1, 64, 64⟩⟩, ()⟩

theorem growsExactly_iff_static :
    GrowsExactly none 1 (growsStatic 65536) ↔
      (GrowthPermitted none 1 (growsStatic 65536) → (growsStatic 65536).entity.HasRoom 1) :=
  growsExactly_iff none 1 (growsStatic 65536) (reached_emptyStatic 65536)

/-- A memory without pages over a buffer of a byte less than a page: growing it by one page passes
every check and panics. -/
theorem static_growth_panics :
    (growsStatic 65535).entity.Reached ∧ ¬GrowsExactly none 1 (growsStatic 65535) := by
  have hpermitted : GrowthPermitted none 1 (growsStatic 65535) :=
    ⟨by decide, by decide, rfl, by decide, by simp [Fuel.Affords, growsStatic]⟩
  have hwell := (reached_emptyStatic 65535).wellFormed
  refine ⟨reached_emptyStatic 65535, fun hexact => ?_⟩
  have hroom := (hwell.grows_iff none 1 (growsStatic 65535)).1 hexact hpermitted 65535 rfl
  exact absurd hroom (by decide)

end MotokoDebugger
