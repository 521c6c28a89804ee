import MotokoDebugger.Executor.Growth
import MotokoDebugger.Executor.Local

/-!
# The protocol of growths

How the growths of memories and tables report their failures: to the program, as -1 or as a trap,
and to the limiter of the embedder.

* `TableGrowth`: the ways out of the growth of a table.
* `StoreLimits`: the limiter of `limits.rs`; `ResourceLimiter.logged` records the calls of a limiter.
* `FollowsProtocol`: the protocol; `growthProtocol_iff`: when the two growths follow it.
-/

namespace MotokoDebugger

open StateExcept

variable {T : Type}

/-! ## Tables -/

namespace TableEntity

/-- The number of elements that the table may grow to. -/
def limit (table : TableEntity) : Nat := min u32Max (table.maximum.getD u32Max)

/-- What the limiter is asked. -/
def askGrowing (table : TableEntity) (delta : Nat) (limiter : ResourceLimiter T) :
    T → Except Unit Bool × T :=
  limiter.tableGrowing table.size
    ((if table.size + delta ≤ u32Max then some (table.size + delta) else none).getD u32Max)
    table.maximum

/-- What the limiter is told. -/
def notifyGrowing (table : TableEntity) (delta : Nat) (limiter : ResourceLimiter T) : T → T :=
  limiter.tableGrowFailed (table.maximum.getD u32Max) table.size delta

end TableEntity

/-- The costs of new elements. -/
def elementsCosts (delta : Nat) (costs : FuelCosts) : Nat := costs.fuelForCopies delta

/-- The ways out of the growth of a table. -/
inductive TableGrowth (limiter : Option (ResourceLimiter T)) (delta : Nat) (init : UntypedVal)
    (s : Growing TableEntity T) : EStateM.Result EntityGrowError (Growing TableEntity T) Nat → Prop
  where
  | refused {error : EntityGrowError} {data : T}
    (hanswer : limiterAnswer limiter (s.entity.askGrowing delta) s.data = (.error error, data)) :
    TableGrowth limiter delta init s (.error error { s with data })
  | overLimit {data : T}
    (hanswer : limiterAnswer limiter (s.entity.askGrowing delta) s.data = (.ok (), data))
    (hlimit : s.entity.limit < s.entity.size + delta) :
    TableGrowth limiter delta init s
      (.error .invalidGrow
        { s with data := limiterNotified limiter (s.entity.notifyGrowing delta) data })
  | outOfFuel {data : T}
    (hanswer : limiterAnswer limiter (s.entity.askGrowing delta) s.data = (.ok (), data))
    (hlimit : s.entity.size + delta ≤ s.entity.limit)
    (hfuel : ¬s.fuel.Affords (elementsCosts delta)) :
    TableGrowth limiter delta init s
      (.error .invalidGrow
        { s with data := limiterNotified limiter (s.entity.notifyGrowing delta) data })
  | grown {data : T} {fuel : Fuel} {elements : List UntypedVal}
    (hanswer : limiterAnswer limiter (s.entity.askGrowing delta) s.data = (.ok (), data))
    (hlimit : s.entity.size + delta ≤ s.entity.limit)
    (hfuel : s.fuel.Affords (elementsCosts delta))
    (hlen : elements.length = s.entity.size + delta) :
    TableGrowth limiter delta init s (.ok s.entity.size ⟨{ s.entity with elements }, fuel, data⟩)

/-- Every growth takes one of the ways out. -/
lemma tableGrowth (limiter : Option (ResourceLimiter T)) (delta : Nat) (init : UntypedVal)
    (s : Growing TableEntity T) :
    TableGrowth limiter delta init s (TableEntity.growUntyped limiter delta init s) := by
  unfold TableEntity.growUntyped
  rw [get_bind]
  dsimp only
  obtain ⟨⟨error | _, data⟩, hanswer⟩ :
      ∃ answer, limiterAnswer limiter (s.entity.askGrowing delta) s.data = answer := ⟨_, rfl⟩
  · show TableGrowth limiter delta init s
      ((askLimiter limiter (s.entity.askGrowing delta) >>= _) s)
    rw [bind_error (askLimiter_error hanswer)]
    exact .refused hanswer
  show TableGrowth limiter delta init s
    ((askLimiter limiter (s.entity.askGrowing delta) >>= _) s)
  rw [bind_ok (askLimiter_ok hanswer)]
  by_cases hadd : s.entity.size + delta ≤ u32Max
  · simp only [if_pos hadd]
    by_cases hmax : s.entity.maximum.getD u32Max < s.entity.size + delta
    · rw [if_pos hmax, notifyLimiter_apply]
      refine .overLimit hanswer ?_
      rw [TableEntity.limit]
      omega
    rw [if_neg hmax, get_bind]
    have hlimit : s.entity.size + delta ≤ s.entity.limit := by
      rw [TableEntity.limit]
      omega
    by_cases hfuel : s.fuel.Affords (elementsCosts delta)
    · have hconsume := Fuel.consumeFuel_of_affords hfuel
      unfold elementsCosts at hconsume
      dsimp only
      have hlen : (s.entity.elements.take (s.entity.size + delta) ++
          List.replicate (s.entity.size + delta - s.entity.elements.length) init).length =
          s.entity.size + delta := by
        rw [List.length_append, List.length_take, List.length_replicate]
        omega
      obtain ⟨fuel, hpaid⟩ | hdisabled := hconsume
      · rw [hpaid]
        exact .grown hanswer hlimit hfuel hlen
      · rw [hdisabled]
        exact .grown hanswer hlimit hfuel hlen
    · have hconsume := Fuel.consumeFuel_of_not_affords hfuel
      unfold elementsCosts at hconsume
      dsimp only
      rw [hconsume]
      dsimp only
      rw [bind_error (notifyLimiter_apply _ _)]
      exact .outOfFuel hanswer hlimit hfuel
  · simp only [if_neg hadd]
    rw [notifyLimiter_apply]
    refine .overLimit hanswer ?_
    rw [TableEntity.limit]
    omega

/-! ## `StoreLimits` -/

/-- `StoreLimits`, as far as it limits growths. -/
structure StoreLimits where
  memorySize : Option Nat
  tableElements : Option Nat
  trapOnGrowFailure : Bool
deriving Repr, DecidableEq

namespace StoreLimits

/-- Is the size within a bound, if there is one? -/
def within (desired : Nat) : Option Nat → Bool
  | none => true
  | some bound => !(bound < desired)

/-- The answer to a request, which is an error where a refusal is to trap. -/
def answer (limits : StoreLimits) (allow : Bool) : Except Unit Bool :=
  if !allow && limits.trapOnGrowFailure then .error () else .ok allow

/-- The `ResourceLimiter` of the limits that are a part of the host state. -/
def limiter (limits : T → StoreLimits) : ResourceLimiter T where
  memoryGrowing _ desired maximum data :=
    ((limits data).answer (within desired (limits data).memorySize && within desired maximum), data)
  tableGrowing _ desired maximum data :=
    ((limits data).answer (within desired (limits data).tableElements && within desired maximum),
      data)
  memoryGrowFailed data := data
  tableGrowFailed _ _ _ data := data

end StoreLimits

/-! ## The calls of a limiter -/

/-- A call of a limiter. -/
inductive LimiterCall where
  | memoryGrowing (answer : Except Unit Bool)
  | tableGrowing (answer : Except Unit Bool)
  | memoryGrowFailed
  | tableGrowFailed
deriving DecidableEq

/-- Is the call a notification? -/
def LimiterCall.isFailure : LimiterCall → Bool
  | .memoryGrowing _ | .tableGrowing _ => false
  | .memoryGrowFailed | .tableGrowFailed => true

/-- A limiter that records its calls. -/
def ResourceLimiter.logged (limiter : ResourceLimiter T) :
    ResourceLimiter (T × List LimiterCall) where
  memoryGrowing current desired maximum s :=
    let (answer, data) := limiter.memoryGrowing current desired maximum s.1
    (answer, data, s.2 ++ [.memoryGrowing answer])
  tableGrowing current desired maximum s :=
    let (answer, data) := limiter.tableGrowing current desired maximum s.1
    (answer, data, s.2 ++ [.tableGrowing answer])
  memoryGrowFailed s := (limiter.memoryGrowFailed s.1, s.2 ++ [.memoryGrowFailed])
  tableGrowFailed maximum current delta s :=
    (limiter.tableGrowFailed maximum current delta s.1, s.2 ++ [.tableGrowFailed])

/-- The state of a growth whose limiter has not been called yet. -/
def Growing.logged {E : Type} (s : Growing E T) : Growing E (T × List LimiterCall) :=
  ⟨s.entity, s.fuel, s.data, []⟩

/-- A growth that the limiter permits and that fails is reported to it once, with the matching
notification; one that it does not permit is not reported. -/
def CallsMatch (asked : Except Unit Bool → LimiterCall) (failed : LimiterCall)
    (calls : List LimiterCall) : Prop :=
  (asked (.ok true) ∈ calls → calls.filter LimiterCall.isFailure = [failed]) ∧
    (asked (.ok true) ∉ calls → calls.filter LimiterCall.isFailure = [])

/-- How a growth reports its failures. `starved` says that nothing but the fuel is missing. -/
structure FollowsProtocol {E : Type} (grow : (U : Type) → Option (ResourceLimiter U) → GrowM E U Nat)
    (asked : Except Unit Bool → LimiterCall) (failed : LimiterCall) (starved : Prop)
    (limiter : Option (ResourceLimiter T)) (s : Growing E T) : Prop where
  fuel : starved → ∃ s', grow T limiter s = .error (.trapCode .outOfFuel) s'
  calls : ∀ l, limiter = some l → ∀ error s', grow _ (some l.logged) s.logged = .error error s' →
    CallsMatch asked failed s'.data.2
  /-- Under `StoreLimits` that are to trap, the instruction traps where the growth fails. -/
  traps : ∀ limits, limiter = some (StoreLimits.limiter limits) →
    (limits s.data).trapOnGrowFailure = true → ∀ error s', grow T limiter s = .error error s' →
      ∀ (l : Local T) put onSuccess, l.store.fuel = s.fuel → l.store.data = s.data →
        ∃ code l', Executor.growOp s.entity (grow T limiter) put onSuccess l = .error (.trap code) l'

/-! ## The instruction -/

/-- What the instruction makes of an error of the growth. -/
def EntityGrowError.outcome (error : EntityGrowError) (l : Local T) :
    EStateM.Result Stop (Local T) (BitVec 32) :=
  match error with
  | .invalidGrow => .ok errorCode l
  | .trapCode code => .error (.trap code) l
  | .panic => .error .panic l

section Instruction

variable {E : Type} {entity : E} {grow : GrowM E T Nat} {put : E → LocalM T Unit}
  {onSuccess : LocalM T Unit}

lemma growOp_failed {l : Local T} {error : EntityGrowError} {s : Growing E T}
    (h : grow ⟨entity, l.store.fuel, l.store.data⟩ = .error error s) :
    Executor.growOp entity grow put onSuccess l =
      error.outcome { l with store := { l.store with fuel := s.fuel, data := s.data } } := by
  rw [Executor.growOp, get_bind, h]
  cases error with
  | invalidGrow => rfl
  | trapCode code => rfl
  | panic => rfl

/-- A machine with some fuel and host state. -/
def Local.idle (fuel : Fuel) (data : T) : Local T :=
  ⟨[], 0, default, default, ⟨[], [], [], [], [], [], [], fuel, data⟩⟩

/-- The instruction traps iff the growth fails with a trap. -/
lemma growOp_traps_iff {error : EntityGrowError} {s s' : Growing E T}
    (h : grow s = .error error s') :
    (∀ (l : Local T) put onSuccess, l.store.fuel = s.fuel → l.store.data = s.data →
      ∃ code l', Executor.growOp s.entity grow put onSuccess l = .error (.trap code) l') ↔
      ∃ code, error = .trapCode code := by
  constructor
  · intro htraps
    obtain ⟨code, l', htrap⟩ := htraps (.idle s.fuel s.data) (fun _ => pure ()) (pure ()) rfl rfl
    rw [growOp_failed h] at htrap
    cases error with
    | invalidGrow => cases htrap
    | trapCode code => exact ⟨code, rfl⟩
    | panic => cases htrap
  · intro htrap l put onSuccess hfuel hdata
    obtain ⟨code, rfl⟩ := htrap
    have hgrow : grow ⟨s.entity, l.store.fuel, l.store.data⟩ = .error (.trapCode code) s' := by
      rw [hfuel, hdata]
      exact h
    exact ⟨code, _, growOp_failed hgrow⟩

end Instruction

/-! ## Recorded calls -/

section Logged

variable {l : ResourceLimiter T} {ask : ResourceLimiter T → T → Except Unit Bool × T}
  {askLogged : ResourceLimiter (T × List LimiterCall) →
    T × List LimiterCall → Except Unit Bool × T × List LimiterCall}
  {asked : Except Unit Bool → LimiterCall} {data : T} {after : T × List LimiterCall}

/-- A recorded request has the answer of the limiter, and its call is recorded. -/
def RecordsAsk (l : ResourceLimiter T) (ask : ResourceLimiter T → T → Except Unit Bool × T)
    (askLogged : ResourceLimiter (T × List LimiterCall) →
      T × List LimiterCall → Except Unit Bool × T × List LimiterCall)
    (asked : Except Unit Bool → LimiterCall) (data : T) : Prop :=
  askLogged l.logged (data, []) = ((ask l data).1, (ask l data).2, [asked (ask l data).1])

lemma RecordsAsk.ok (h : RecordsAsk l ask askLogged asked data)
    (hanswer : limiterAnswer (some l.logged) askLogged (data, []) = (.ok (), after)) :
    (limiterAnswer (some l) ask data).1 = .ok () ∧ after.2 = [asked (.ok true)] := by
  unfold RecordsAsk at h
  simp only [limiterAnswer, h] at hanswer ⊢
  generalize ask l data = answered at hanswer ⊢
  obtain ⟨answer, data'⟩ := answered
  dsimp only at hanswer ⊢
  split at hanswer
  case h_1 heq =>
    obtain ⟨rfl, rfl⟩ := Prod.mk.inj heq
    obtain ⟨-, rfl⟩ := Prod.mk.inj hanswer
    exact ⟨rfl, rfl⟩
  case h_2 | h_3 => cases hanswer

lemma RecordsAsk.error {error : EntityGrowError} (h : RecordsAsk l ask askLogged asked data)
    (hanswer : limiterAnswer (some l.logged) askLogged (data, []) = (.error error, after)) :
    (limiterAnswer (some l) ask data).1 = .error error ∧
      ∃ answer, answer ≠ .ok true ∧ after.2 = [asked answer] := by
  unfold RecordsAsk at h
  simp only [limiterAnswer, h] at hanswer ⊢
  generalize ask l data = answered at hanswer ⊢
  obtain ⟨answer, data'⟩ := answered
  dsimp only at hanswer ⊢
  split at hanswer
  case h_1 => cases hanswer
  case h_2 heq =>
    obtain ⟨rfl, rfl⟩ := Prod.mk.inj heq
    obtain ⟨herror, rfl⟩ := Prod.mk.inj hanswer
    exact ⟨herror, .ok false, by simp, rfl⟩
  case h_3 heq =>
    obtain ⟨rfl, rfl⟩ := Prod.mk.inj heq
    obtain ⟨herror, rfl⟩ := Prod.mk.inj hanswer
    exact ⟨herror, _, by simp, rfl⟩

end Logged

/-! ## The growth of memories -/

/-- Nothing but the fuel is missing for the growth of a memory. -/
structure MemoryStarved (limiter : Option (ResourceLimiter T)) (additional : Nat)
    (s : Growing MemoryEntity T) : Prop where
  pos : 0 < additional
  pages : additional ≤ maxPages
  limiter : (limiterAnswer limiter (s.entity.askGrowing additional) s.data).1 = .ok ()
  limit : s.entity.currentPages + additional ≤ s.entity.limit
  fuel : ¬s.fuel.Affords (pagesCosts additional)

/-- More pages than any memory has are asked for, and the limits do not see it: either there are
more new pages than that alone, or the limits and the maximum allow as many as any memory has. -/
def MemoryOverflow (limits : StoreLimits) (additional : Nat) (memory : MemoryEntity) : Prop :=
  maxPages < memory.currentPages + additional ∧
    (additional ≤ maxPages →
      StoreLimits.within (maxPages * bytesPerPage) limits.memorySize = true ∧
        maxPages ≤ memory.maximumPages.getD maxPages)

section Memory

variable {limiter : Option (ResourceLimiter T)} {additional : Nat} {s : Growing MemoryEntity T}

lemma memory_outOfFuel (h : MemoryStarved limiter additional s) :
    ∃ s', MemoryEntity.grow limiter additional s = .error (.trapCode .outOfFuel) s' := by
  have hpos := h.pos
  have hpages := h.pages
  have hlimit := h.limit
  have hgrowth := memoryGrowth limiter additional s
  generalize MemoryEntity.grow limiter additional s = result at hgrowth ⊢
  cases hgrowth with
  | nothing => omega
  | notPages => omega
  | refused _ _ hanswer =>
    have hlimiter := h.limiter
    rw [hanswer] at hlimiter
    cases hlimiter
  | overLimit => omega
  | outOfFuel => exact ⟨_, rfl⟩
  | panic _ _ _ _ hfuel => exact absurd hfuel h.fuel
  | grown _ _ _ _ hfuel => exact absurd hfuel h.fuel

/-- The limiter is not told of a panic. -/
lemma memory_calls_iff (hwell : s.entity.WellFormed) (l : ResourceLimiter T) :
    (∀ error s', MemoryEntity.grow (some l.logged) additional s.logged = .error error s' →
      CallsMatch .memoryGrowing .memoryGrowFailed s'.data.2) ↔
      (GrowthPermitted (some l) additional s → s.entity.HasRoom additional) := by
  have hrecords : RecordsAsk l (s.entity.askGrowing additional) (s.entity.askGrowing additional)
      .memoryGrowing s.data := rfl
  have hgrowth := memoryGrowth (some l.logged) additional s.logged
  generalize MemoryEntity.grow (some l.logged) additional s.logged = result at hgrowth
  cases hgrowth with
  | nothing hzero =>
    refine iff_of_true (fun _ _ herror => by cases herror) fun hpermitted => ?_
    have hpos := hpermitted.pos
    omega
  | notPages hlarge =>
    refine iff_of_true (fun error s' herror => ?_) fun hpermitted => ?_
    · cases herror
      simp [CallsMatch, Growing.logged]
    · have hpages := hpermitted.pages
      omega
  | refused hpos hpages hanswer =>
    obtain ⟨hrefused, answer, hne, hcalls⟩ := hrecords.error hanswer
    refine iff_of_true (fun error s' herror => ?_) fun hpermitted => ?_
    · cases herror
      simp [CallsMatch, hcalls, hne.symm, LimiterCall.isFailure]
    · have hlimiter := hpermitted.limiter
      rw [hrefused] at hlimiter
      cases hlimiter
  | overLimit _ _ hanswer hlimit =>
    obtain ⟨-, hcalls⟩ := hrecords.ok hanswer
    refine iff_of_true (fun error s' herror => ?_) fun hpermitted => ?_
    · cases herror
      simp [CallsMatch, limiterNotified, ResourceLimiter.logged, hcalls, LimiterCall.isFailure]
    · have hfits : s.entity.currentPages + additional ≤ s.entity.limit := hpermitted.limit
      have hover : s.entity.limit < s.entity.currentPages + additional := hlimit
      omega
  | outOfFuel _ _ hanswer _ hfuel =>
    obtain ⟨-, hcalls⟩ := hrecords.ok hanswer
    refine iff_of_true (fun error s' herror => ?_) fun hpermitted => absurd hpermitted.fuel hfuel
    cases herror
    simp [CallsMatch, limiterNotified, ResourceLimiter.logged, hcalls, LimiterCall.isFailure]
  | panic hpos hpages hanswer hlimit hfuel hunfit =>
    obtain ⟨hlimiter, hcalls⟩ := hrecords.ok hanswer
    refine iff_of_false (fun hmatch => ?_) fun hfits => ?_
    · have hnot := (hmatch _ _ rfl).1
      simp [hcalls, LimiterCall.isFailure] at hnot
    · exact (hwell.unfit_iff additional).1 hunfit (hfits ⟨hpos, hpages, hlimiter, hlimit, hfuel⟩)
  | grown _ _ _ _ _ hfit =>
    exact iff_of_true (fun _ _ herror => by cases herror)
      fun _ => not_not.1 (mt (hwell.unfit_iff additional).2 hfit)

/-- The answer of limits that are to trap. -/
lemma limiterAnswer_limits {limits : T → StoreLimits} {data : T}
    (htrap : (limits data).trapOnGrowFailure = true)
    {ask : ResourceLimiter T → T → Except Unit Bool × T} {allow : Bool}
    (hask : ask (StoreLimits.limiter limits) data = ((limits data).answer allow, data)) :
    limiterAnswer (some (StoreLimits.limiter limits)) ask data =
      (if allow = true then .ok () else .error (.trapCode .growthOperationLimited), data) := by
  simp only [limiterAnswer, hask, StoreLimits.answer, htrap, Bool.and_true]
  cases allow with
  | true => rfl
  | false => rfl

/-- Do the limits permit the growth of a memory? -/
def StoreLimits.memoryAllows (limits : StoreLimits) (additional : Nat) (memory : MemoryEntity) :
    Bool :=
  let desired := (pagesCheckedAdd memory.currentPages additional).getD maxPages * bytesPerPage
  within desired limits.memorySize &&
    within desired (some (memory.maximumPages.getD maxPages * bytesPerPage))

lemma within_some {desired bound : Nat} :
    StoreLimits.within desired (some bound) = true ↔ desired ≤ bound := by
  simp [StoreLimits.within]

/-- The limits permit a growth over the limit of the memory iff it overflows. -/
lemma memoryAllows_iff {limits : StoreLimits} {memory : MemoryEntity}
    (hlimit : memory.limit < memory.currentPages + additional) (hpages : additional ≤ maxPages) :
    limits.memoryAllows additional memory = true ↔ MemoryOverflow limits additional memory := by
  have hbytes : 0 < bytesPerPage := by decide
  rw [MemoryEntity.limit] at hlimit
  unfold StoreLimits.memoryAllows MemoryOverflow pagesCheckedAdd
  by_cases hadd : memory.currentPages + additional ≤ maxPages
  · rw [if_pos hadd, Option.getD_some, Bool.and_eq_true, within_some,
      Nat.mul_le_mul_right_iff hbytes]
    exact iff_of_false (fun hallows => by omega) (fun hover => by omega)
  · rw [if_neg hadd, Option.getD_none, Bool.and_eq_true, within_some,
      Nat.mul_le_mul_right_iff hbytes]
    constructor
    · intro hallows
      exact ⟨by omega, fun _ => hallows⟩
    · intro hover
      exact hover.2 hpages

/-- Under limits that are to trap, -1 is returned for an overflow only. -/
lemma memory_traps_iff (hwell : s.entity.WellFormed) {limits : T → StoreLimits}
    (htrap : (limits s.data).trapOnGrowFailure = true) :
    (∀ error s',
      MemoryEntity.grow (some (StoreLimits.limiter limits)) additional s = .error error s' →
      ∃ code, error = .trapCode code) ↔
      (GrowthPermitted (some (StoreLimits.limiter limits)) additional s →
        s.entity.HasRoom additional) ∧ ¬MemoryOverflow (limits s.data) additional s.entity := by
  have hpages := hwell.pages
  have hanswers : limiterAnswer (some (StoreLimits.limiter limits))
      (s.entity.askGrowing additional) s.data =
      (if (limits s.data).memoryAllows additional s.entity = true then .ok ()
        else .error (.trapCode .growthOperationLimited), s.data) :=
    limiterAnswer_limits htrap rfl
  have hgrowth := memoryGrowth (some (StoreLimits.limiter limits)) additional s
  generalize MemoryEntity.grow (some (StoreLimits.limiter limits)) additional s = result at hgrowth
  -- within the limit of the memory there is no overflow
  have hno : s.entity.currentPages + additional ≤ s.entity.limit →
      ¬MemoryOverflow (limits s.data) additional s.entity := by
    intro hlimit hover
    have hpast := hover.1
    rw [MemoryEntity.limit] at hlimit
    omega
  cases hgrowth with
  | nothing hzero =>
    refine iff_of_true (fun _ _ herror => by cases herror) ⟨fun hpermitted => ?_, fun hover => ?_⟩
    · have hpos := hpermitted.pos
      omega
    · have hpast := hover.1
      omega
  | notPages hlarge =>
    refine iff_of_false (fun htraps => ?_) fun hnone => hnone.2 ⟨by omega, fun hle => by omega⟩
    obtain ⟨code, hcode⟩ := htraps _ _ rfl
    cases hcode
  | refused hpos hadd hanswer =>
    rw [hanswers] at hanswer
    have hrefused := (Prod.mk.inj hanswer).1
    refine iff_of_true (fun error s' herror => ?_) ⟨fun hpermitted => ?_, fun hover => ?_⟩
    · cases herror
      split at hrefused
      · cases hrefused
      · exact ⟨_, (Except.error.inj hrefused).symm⟩
    · have hlimiter := hpermitted.limiter
      rw [hanswers, hrefused] at hlimiter
      cases hlimiter
    · have hlimit : s.entity.limit < s.entity.currentPages + additional := by
        by_contra hle
        exact hno (by omega) hover
      rw [if_pos ((memoryAllows_iff hlimit hadd).2 hover)] at hrefused
      cases hrefused
  | overLimit hpos hadd hanswer hlimit =>
    rw [hanswers] at hanswer
    have hallowed := (Prod.mk.inj hanswer).1
    refine iff_of_false (fun htraps => ?_) fun hnone => hnone.2 ?_
    · obtain ⟨code, hcode⟩ := htraps _ _ rfl
      cases hcode
    · split at hallowed
      · exact (memoryAllows_iff hlimit hadd).1 ‹_›
      · cases hallowed
  | outOfFuel _ _ _ hlimit hfuel =>
    refine iff_of_true (fun error s' herror => ?_)
      ⟨fun hpermitted => absurd hpermitted.fuel hfuel, hno hlimit⟩
    cases herror
    exact ⟨_, rfl⟩
  | panic hpos hadd hanswer hlimit hfuel hunfit =>
    refine iff_of_false (fun htraps => ?_) fun hnone => ?_
    · obtain ⟨code, hcode⟩ := htraps _ _ rfl
      cases hcode
    · refine (hwell.unfit_iff additional).1 hunfit (hnone.1 ?_)
      exact ⟨hpos, hadd, by rw [hanswer], hlimit, hfuel⟩
  | grown _ _ _ hlimit _ hfit =>
    have hroom := not_not.1 (mt (hwell.unfit_iff additional).2 hfit)
    exact iff_of_true (fun _ _ herror => by cases herror) ⟨fun _ => hroom, hno hlimit⟩

end Memory

/-! ## The growth of tables -/

/-- Nothing but the fuel is missing for the growth of a table. -/
structure TableStarved (limiter : Option (ResourceLimiter T)) (delta : Nat)
    (s : Growing TableEntity T) : Prop where
  limiter : (limiterAnswer limiter (s.entity.askGrowing delta) s.data).1 = .ok ()
  limit : s.entity.size + delta ≤ s.entity.limit
  fuel : ¬s.fuel.Affords (elementsCosts delta)

/-- More elements than any table has are asked for, and neither the limits nor the maximum are below
that. -/
def TableOverflow (limits : StoreLimits) (delta : Nat) (table : TableEntity) : Prop :=
  u32Max < table.size + delta ∧ StoreLimits.within u32Max limits.tableElements = true ∧
    StoreLimits.within u32Max table.maximum = true

/-- Do the limits permit the growth of a table? -/
def StoreLimits.tableAllows (limits : StoreLimits) (delta : Nat) (table : TableEntity) : Bool :=
  let desired :=
    (if table.size + delta ≤ u32Max then some (table.size + delta) else none).getD u32Max
  within desired limits.tableElements && within desired table.maximum

section Table

variable {limiter : Option (ResourceLimiter T)} {delta : Nat} {init : UntypedVal}
  {s : Growing TableEntity T}

/-- Running out of fuel is no trap. -/
lemma table_fuel_iff :
    (TableStarved limiter delta s →
      ∃ s', TableEntity.growUntyped limiter delta init s = .error (.trapCode .outOfFuel) s') ↔
      ¬TableStarved limiter delta s := by
  refine ⟨fun htraps hstarved => ?_, fun hnot hstarved => absurd hstarved hnot⟩
  obtain ⟨s', htrap⟩ := htraps hstarved
  have hgrowth := tableGrowth limiter delta init s
  rw [htrap] at hgrowth
  cases hgrowth with
  | refused hanswer =>
    have hlimiter := hstarved.limiter
    rw [hanswer] at hlimiter
    cases hlimiter

/-- The limiter is told of every failure that it permitted. -/
lemma table_calls (l : ResourceLimiter T) :
    ∀ error s', TableEntity.growUntyped (some l.logged) delta init s.logged = .error error s' →
      CallsMatch .tableGrowing .tableGrowFailed s'.data.2 := by
  have hrecords : RecordsAsk l (s.entity.askGrowing delta) (s.entity.askGrowing delta)
      .tableGrowing s.data := rfl
  have hgrowth := tableGrowth (some l.logged) delta init s.logged
  intro error s' herror
  rw [herror] at hgrowth
  cases hgrowth with
  | refused hanswer =>
    obtain ⟨-, answer, hne, hcalls⟩ := hrecords.error hanswer
    simp [CallsMatch, hcalls, hne.symm, LimiterCall.isFailure]
  | overLimit hanswer =>
    obtain ⟨-, hcalls⟩ := hrecords.ok hanswer
    simp [CallsMatch, limiterNotified, TableEntity.notifyGrowing, ResourceLimiter.logged, hcalls,
      LimiterCall.isFailure]
  | outOfFuel hanswer =>
    obtain ⟨-, hcalls⟩ := hrecords.ok hanswer
    simp [CallsMatch, limiterNotified, TableEntity.notifyGrowing, ResourceLimiter.logged, hcalls,
      LimiterCall.isFailure]

/-- The limits permit a growth over the limit of the table iff it overflows. -/
lemma tableAllows_iff {limits : StoreLimits} {table : TableEntity}
    (hlimit : table.limit < table.size + delta) :
    limits.tableAllows delta table = true ↔ TableOverflow limits delta table := by
  rw [TableEntity.limit] at hlimit
  unfold StoreLimits.tableAllows TableOverflow
  by_cases hadd : table.size + delta ≤ u32Max
  · rw [if_pos hadd, Option.getD_some, Bool.and_eq_true]
    refine iff_of_false (fun hallows => ?_) (fun hover => by omega)
    cases hmax : table.maximum with
    | none =>
      rw [hmax, Option.getD_none] at hlimit
      omega
    | some maximum =>
      rw [hmax, Option.getD_some] at hlimit
      have hle := within_some.1 (hmax ▸ hallows.2)
      omega
  · rw [if_neg hadd, Option.getD_none, Bool.and_eq_true]
    constructor
    · intro hallows
      exact ⟨by omega, hallows⟩
    · intro hover
      exact hover.2

/-- Under limits that are to trap, -1 is returned where the fuel runs out and for an overflow. -/
lemma table_traps_iff (init : UntypedVal) {limits : T → StoreLimits}
    (htrap : (limits s.data).trapOnGrowFailure = true) :
    (∀ error s',
      TableEntity.growUntyped (some (StoreLimits.limiter limits)) delta init s = .error error s' →
      ∃ code, error = .trapCode code) ↔
      ¬TableStarved (some (StoreLimits.limiter limits)) delta s ∧
        ¬TableOverflow (limits s.data) delta s.entity := by
  have hanswers : limiterAnswer (some (StoreLimits.limiter limits)) (s.entity.askGrowing delta)
      s.data =
      (if (limits s.data).tableAllows delta s.entity = true then .ok ()
        else .error (.trapCode .growthOperationLimited), s.data) :=
    limiterAnswer_limits htrap rfl
  have hgrowth := tableGrowth (some (StoreLimits.limiter limits)) delta init s
  generalize TableEntity.growUntyped (some (StoreLimits.limiter limits)) delta init s = result
    at hgrowth
  have hno : s.entity.size + delta ≤ s.entity.limit →
      ¬TableOverflow (limits s.data) delta s.entity := by
    intro hlimit hover
    have hpast := hover.1
    rw [TableEntity.limit] at hlimit
    omega
  cases hgrowth with
  | refused hanswer =>
    rw [hanswers] at hanswer
    have hrefused := (Prod.mk.inj hanswer).1
    refine iff_of_true (fun error s' herror => ?_) ⟨fun hstarved => ?_, fun hover => ?_⟩
    · cases herror
      split at hrefused
      · cases hrefused
      · exact ⟨_, (Except.error.inj hrefused).symm⟩
    · have hlimiter := hstarved.limiter
      rw [hanswers, hrefused] at hlimiter
      cases hlimiter
    · have hlimit : s.entity.limit < s.entity.size + delta := by
        by_contra hle
        exact hno (by omega) hover
      rw [if_pos ((tableAllows_iff hlimit).2 hover)] at hrefused
      cases hrefused
  | overLimit hanswer hlimit =>
    rw [hanswers] at hanswer
    have hallowed := (Prod.mk.inj hanswer).1
    refine iff_of_false (fun htraps => ?_) fun hnone => hnone.2 ?_
    · obtain ⟨code, hcode⟩ := htraps _ _ rfl
      cases hcode
    · split at hallowed
      · exact (tableAllows_iff hlimit).1 ‹_›
      · cases hallowed
  | outOfFuel hanswer hlimit hfuel =>
    refine iff_of_false (fun htraps => ?_) fun hnone => hnone.1 ⟨by rw [hanswer], hlimit, hfuel⟩
    obtain ⟨code, hcode⟩ := htraps _ _ rfl
    cases hcode
  | grown _ hlimit hfuel =>
    exact iff_of_true (fun _ _ herror => by cases herror)
      ⟨fun hstarved => hstarved.fuel hfuel, hno hlimit⟩

end Table

/-! ## The protocol -/

/-- The growth of a memory follows the protocol. -/
abbrev MemoryFollows (limiter : Option (ResourceLimiter T)) (additional : Nat)
    (s : Growing MemoryEntity T) : Prop :=
  FollowsProtocol (fun _ limiter => MemoryEntity.grow limiter additional) .memoryGrowing
    .memoryGrowFailed (MemoryStarved limiter additional s) limiter s

/-- The growth of a table follows the protocol. -/
abbrev TableFollows (limiter : Option (ResourceLimiter T)) (delta : Nat) (init : UntypedVal)
    (s : Growing TableEntity T) : Prop :=
  FollowsProtocol (fun _ limiter => TableEntity.growUntyped limiter delta init) .tableGrowing
    .tableGrowFailed (TableStarved limiter delta s) limiter s

/-- When the growth of a memory follows the protocol: a limiter is there for no panic, and limits
that are to trap for no overflow. -/
structure MemoryReports (limiter : Option (ResourceLimiter T)) (additional : Nat)
    (s : Growing MemoryEntity T) : Prop where
  room : limiter ≠ none → GrowthPermitted limiter additional s → s.entity.HasRoom additional
  overflow : ∀ limits, limiter = some (StoreLimits.limiter limits) →
    (limits s.data).trapOnGrowFailure = true → ¬MemoryOverflow (limits s.data) additional s.entity

/-- When the growth of a table follows the protocol: there is enough fuel, and limits that are to
trap are there for no overflow. -/
structure TableReports (limiter : Option (ResourceLimiter T)) (delta : Nat)
    (s : Growing TableEntity T) : Prop where
  fuel : ¬TableStarved limiter delta s
  overflow : ∀ limits, limiter = some (StoreLimits.limiter limits) →
    (limits s.data).trapOnGrowFailure = true → ¬TableOverflow (limits s.data) delta s.entity

lemma memoryFollows_iff (limiter : Option (ResourceLimiter T)) (additional : Nat)
    (s : Growing MemoryEntity T) (hwell : s.entity.WellFormed) :
    MemoryFollows limiter additional s ↔ MemoryReports limiter additional s := by
  constructor
  · intro hfollows
    refine ⟨fun hsome => ?_, fun limits hlimits htrap => ?_⟩
    · obtain ⟨l, rfl⟩ := Option.ne_none_iff_exists'.1 hsome
      exact (memory_calls_iff hwell l).1 (hfollows.calls l rfl)
    · have htraps := hfollows.traps limits hlimits htrap
      subst hlimits
      refine ((memory_traps_iff hwell htrap).1 fun error s' herror => ?_).2
      exact (growOp_traps_iff herror).1 (htraps error s' herror)
  · intro hreports
    refine ⟨memory_outOfFuel, fun l hl => ?_, fun limits hlimits htrap error s' herror => ?_⟩
    · subst hl
      exact (memory_calls_iff hwell l).2 (hreports.room (Option.some_ne_none l))
    · have hoverflow := hreports.overflow limits hlimits htrap
      subst hlimits
      have hroom := hreports.room (Option.some_ne_none _)
      exact (growOp_traps_iff herror).2
        ((memory_traps_iff hwell htrap).2 ⟨hroom, hoverflow⟩ error s' herror)

lemma tableFollows_iff (limiter : Option (ResourceLimiter T)) (delta : Nat) (init : UntypedVal)
    (s : Growing TableEntity T) :
    TableFollows limiter delta init s ↔ TableReports limiter delta s := by
  constructor
  · intro hfollows
    refine ⟨table_fuel_iff.1 hfollows.fuel, fun limits hlimits htrap => ?_⟩
    have htraps := hfollows.traps limits hlimits htrap
    subst hlimits
    refine ((table_traps_iff init htrap).1 fun error s' herror => ?_).2
    exact (growOp_traps_iff herror).1 (htraps error s' herror)
  · intro hreports
    refine ⟨table_fuel_iff.2 hreports.fuel, fun l _ => table_calls l,
      fun limits hlimits htrap error s' herror => ?_⟩
    have hoverflow := hreports.overflow limits hlimits htrap
    have hfuel := hreports.fuel
    subst hlimits
    exact (growOp_traps_iff herror).2
      ((table_traps_iff init htrap).2 ⟨hfuel, hoverflow⟩ error s' herror)

/-- When the growths of memories and of tables follow the protocol. -/
theorem growthProtocol_iff (limiter : Option (ResourceLimiter T)) (delta : Nat) (init : UntypedVal)
    (memory : Growing MemoryEntity T) (table : Growing TableEntity T)
    (h : memory.entity.Reached) :
    (MemoryFollows limiter delta memory ↔ MemoryReports limiter delta memory) ∧
      (TableFollows limiter delta init table ↔ TableReports limiter delta table) :=
  ⟨memoryFollows_iff limiter delta memory h.wellFormed, tableFollows_iff limiter delta init table⟩

/-- A table without elements in a store with metering and without fuel. -/
def growsStarved : Growing TableEntity Unit := ⟨⟨.funcRef, none, []⟩, ⟨0, true, ⟨1, 1, 1⟩⟩, ()⟩

theorem growthProtocol_iff_static :
    (MemoryFollows none 1 (growsStatic 65536) ↔ MemoryReports none 1 (growsStatic 65536)) ∧
      (TableFollows none 1 0 growsStarved ↔ TableReports none 1 growsStarved) :=
  growthProtocol_iff none 1 0 (growsStatic 65536) growsStarved (reached_emptyStatic 65536)

/-- Limits without bounds that are to trap. -/
def trappingLimits : Unit → StoreLimits := fun _ => ⟨none, none, true⟩

/-- The growth of a table by one element without fuel, and the growth of a memory by 65537 pages under
limits that are to trap. -/
theorem growths_return_failure :
    ¬TableFollows none 1 0 growsStarved ∧ (growsStatic 65536).entity.Reached ∧
      ¬MemoryFollows (some (StoreLimits.limiter trappingLimits)) 65537 (growsStatic 65536) := by
  refine ⟨fun hfollows => ?_, reached_emptyStatic 65536, fun hfollows => ?_⟩
  · have hstarved : TableStarved none 1 growsStarved :=
      ⟨rfl, by decide, by simp [Fuel.Affords, growsStarved, elementsCosts, FuelCosts.fuelForCopies]⟩
    exact ((tableFollows_iff _ _ _ _).1 hfollows).fuel hstarved
  · have hreports := (memoryFollows_iff _ _ _ (reached_emptyStatic 65536).wellFormed).1 hfollows
    refine hreports.overflow trappingLimits rfl rfl ⟨by decide, fun hle => ?_⟩
    exact absurd hle (by decide)

end MotokoDebugger
