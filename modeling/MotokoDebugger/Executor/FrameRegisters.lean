import MotokoDebugger.Executor.Loop

/-!
# The registers of the topmost frame

The executor reads and writes registers through a pointer of its own, `sp`, which every
instruction has to leave at the cells of the topmost frame.

* `Framed`: the pointer is at these cells.
* `framed_or_astray`: it is, unless a tail call of a host function has popped the frame. The
  instruction pointer is then still on that call.
-/

namespace MotokoDebugger

namespace Executor

open StateExcept Runs

variable {T : Type} {α : Type} {env : Engine T}

/-- The pointer to the frame, and where the frames are on the value stack. -/
def places (m : Machine T) : FrameRegisters × List StackOffsets :=
  (m.sp, m.stack.calls.frames.map (·.offsets))

/-- The pointer to the frame is at the cells of the topmost one. -/
def Framed (m : Machine T) : Prop := (places m).2.head? = some (places m).1

/-- The instruction pointer is on a tail call or on a parameter word. -/
def Astray (env : Engine T) (m : Machine T) : Prop :=
  ∀ instr, env.instrAt m.ip = some instr →
    instr.op.isParam ∨ ∃ site, instr.op.callSite = some site ∧ site.results = none

lemma framed_iff {m : Machine T} :
    Framed m ↔ ∃ frame, m.stack.calls.peek = some frame ∧ m.sp = frame.offsets := by
  rw [Framed, places, List.head?_map, Option.map_eq_some_iff]
  exact exists_congr fun frame => and_congr_right fun _ => eq_comm

/-! ## Steps that keep the places -/

/-- No outcome moves the pointer or a frame. -/
abbrev KeepsPlaces (x : ExecM T α) : Prop := Keeps places x

lemma keepsPlaces_stepLocal (x : LocalM T α) : KeepsPlaces (stepLocal x) :=
  Keeps.zoom (fun _ _ => rfl) x

lemma keepsPlaces_setValues (values : ValueStack) :
    KeepsPlaces (setValues values : ExecM T Unit) := Keeps.modify fun _ => rfl

lemma keepsPlaces_updateCache (inst : Nat) : KeepsPlaces (updateCache inst : ExecM T Unit) :=
  Keeps.get.bind fun _ => (readOnly_unwrap _).keeps.bind fun _ => Keeps.modify fun _ => rfl

lemma offsets_updateInstrPtr (calls : CallStack) (ip : InstructionPtr) :
    (calls.updateInstrPtr ip).frames.map (·.offsets) = calls.frames.map (·.offsets) := by
  unfold CallStack.updateInstrPtr
  split
  · rfl
  · rename_i heq
    rw [heq]
    rfl

lemma keepsPlaces_updateInstrPtrAt (offset : Nat) :
    KeepsPlaces (updateInstrPtrAt offset : ExecM T Unit) := by
  refine Keeps.bind (Keeps.modify fun _ => rfl) fun _ => Keeps.get.bind fun _ => ?_
  refine (readOnly_unwrap _).keeps.bind fun _ => Keeps.get.bind fun m => Keeps.modify fun m' => ?_
  simp only [places, offsets_updateInstrPtr]

lemma keepsPlaces_invokeCallHook (callType : CallHook) :
    KeepsPlaces (invokeCallHook env callType) := by
  unfold invokeCallHook
  split
  · exact Keeps.pure _
  · refine Keeps.get.bind fun m => Keeps.bind (Keeps.modify fun _ => rfl) fun _ => ?_
    split
    · exact Keeps.pure _
    · exact Keeps.throw _

lemma keepsPlaces_dispatchHostFunc (hostFunc : HostFuncEntity) (inst : Option Nat) :
    KeepsPlaces (dispatchHostFunc env hostFunc inst) := by
  refine Keeps.get.bind fun m => Keeps.bind (Keeps.modify fun _ => rfl) fun _ => ?_
  split
  · exact (keepsPlaces_setValues _).bind fun _ => Keeps.throw _
  · exact keepsPlaces_setValues _

lemma keepsPlaces_passParams (hasParams : Bool) (offsets : StackOffsets) :
    KeepsPlaces (passParams env hasParams offsets) := by
  unfold passParams
  split
  · refine (keepsPlaces_stepLocal _).bind fun params => Keeps.get.bind fun m => ?_
    exact (readOnly_assume _).keeps.bind fun values => keepsPlaces_setValues _
  · exact Keeps.pure _

lemma keepsPlaces_runHostFunc (c : CallContext) (results : RegSpan) (func : Nat)
    (hostFunc : HostFuncEntity) (inst : Nat) :
    KeepsPlaces (runHostFunc env c results func hostFunc inst) := by
  have hend : KeepsPlaces (do
      resumable func results (dispatchHostFunc env hostFunc (some inst))
      updateCache inst
      let results ← unwrap (results.iter hostFunc.lenResults)
      let returned := (← get).stack.values.top (max hostFunc.lenParams hostFunc.lenResults)
      setValues ((← get).stack.values.drop (max hostFunc.lenParams hostFunc.lenResults))
      stepLocal (setRegisters results returned) : ExecM T Unit) := by
    refine (keeps_resumable (keepsPlaces_dispatchHostFunc _ _)).bind fun _ => ?_
    refine (keepsPlaces_updateCache _).bind fun _ => (readOnly_unwrap _).keeps.bind fun results => ?_
    refine Keeps.get.bind fun _ => Keeps.get.bind fun _ => ?_
    exact (keepsPlaces_setValues _).bind fun _ => keepsPlaces_stepLocal _
  refine Keeps.get.bind fun _ => Keeps.get.bind fun m => (readOnly_liftTrap _).keeps.bind ?_
  refine fun values => (keepsPlaces_setValues _).bind fun _ => ?_
  refine (keepsPlaces_passParams _ _).bind fun _ => ?_
  dsimp only
  split
  · exact (keepsPlaces_updateInstrPtrAt 1).bind fun _ => hend
  · exact hend

lemma keepsPlaces_executeOther (op : Op) : KeepsPlaces (executeOther env op) := by
  unfold executeOther
  split
  · unfold executeBranchTableMany
    refine (keepsPlaces_stepLocal _).bind fun offset => (keepsPlaces_stepLocal _).bind fun _ => ?_
    refine Keeps.get.bind fun m => (keepsPlaces_stepLocal _).bind fun _ => ?_
    refine (keepsPlaces_stepLocal _).bind fun target => ?_
    split
    · exact keepsPlaces_stepLocal _
    · exact keepsPlaces_stepLocal _
    · refine readOnly_returnCallerResults.keeps.bind fun cells => ?_
      refine (keepsPlaces_stepLocal _).bind fun regs => (keepsPlaces_stepLocal _).bind fun _ => ?_
      refine Keeps.get.bind fun _ => (readOnly_assume _).keeps.bind fun _ => ?_
      exact keepsPlaces_setValues _
    · exact Keeps.throw _
  · exact keepsPlaces_stepLocal _

lemma Framed.of_places {m m' : Machine T} (h : Framed m) (hplaces : places m' = places m) :
    Framed m' := by
  rw [Framed, hplaces]
  exact h

/-! ## Calls and returns -/

/-- A return that goes on does so in the frame below. -/
lemma framed_returnImpl {m m' : Machine T} (h : returnImpl m = .ok .continue_ m') : Framed m' := by
  obtain ⟨returned, popped, calls, cache, -, -, -, hresume⟩ := returnImpl_eq_ok.mp h
  unfold resumeCaller at hresume
  split at hresume
  · rename_i caller hpeek
    obtain ⟨-, rfl⟩ := Prod.mk.inj hresume
    exact framed_iff.mpr ⟨caller, hpeek, rfl⟩
  · obtain ⟨hflow, -⟩ := Prod.mk.inj hresume
    cases hflow

/-- A compiled function is entered in its own frame. -/
lemma framed_compiled {c : CallContext} {results : RegSpan} {body : EngineFunc} {inst : Option Nat}
    {m m' : Machine T} {u : Unit}
    (h : executeCallee env c results (.compiled body inst) m = .ok u m') : Framed m' := by
  obtain ⟨_, m₁, hcall, hswitch⟩ := bind_eq_ok.mp h
  have hkeep : places m' = places m₁ := by
    cases inst with
    | none => cases hswitch; rfl
    | some inst => exact (keepsPlaces_updateCache inst).of_ok hswitch
  refine Framed.of_places ?_ hkeep
  obtain ⟨kind, hasParams⟩ := c
  cases kind with
  | nested =>
    obtain ⟨called, m₂, calls, -, -, hpush, rfl⟩ := nestedCall_eq_ok.mp hcall
    obtain ⟨-, -, changed, hframes⟩ := CallStack.push_eq_ok hpush
    simp [Framed, places, hframes]
  | tail =>
    obtain ⟨called, m₂, stack, called', callerInst, calls, -, -, hpush, rfl⟩ :=
      tailCall_eq_ok.mp hcall
    obtain ⟨-, -, changed, hframes⟩ := CallStack.push_eq_ok hpush
    simp [Framed, places, hframes]

/-- A nested call of a host function stays in the frame of its caller. -/
lemma places_nestedHost {hasParams : Bool} {results : RegSpan} {func : Nat}
    {entity : HostFuncEntity} {m m' : Machine T} {u : Unit}
    (h : executeCallee env ⟨.nested, hasParams⟩ results (.host func entity) m = .ok u m') :
    places m' = places m := by
  refine Keeps.of_ok (f := places) ?_ h
  refine (keepsPlaces_invokeCallHook _).bind fun _ => Keeps.bind ?_ fun _ =>
    keepsPlaces_invokeCallHook _
  rw [executeHostFunc_eq]
  refine Keeps.get.bind fun m => (readOnly_unwrap _).keeps.bind fun inst => Keeps.bind ?_ ?_
  · exact Keeps.get.bind fun m => (readOnly_unwrap _).keeps.bind fun _ => Keeps.pure _
  · exact fun _ => keepsPlaces_runHostFunc _ _ _ _ _

/-- A tail call of a host function does not leave its instruction. -/
lemma astray_tailHost {site : CallSite} {results : RegSpan} {func : Nat} {entity : HostFuncEntity}
    {pulled : Option (Nat × Nat)} {instr : Instruction} {m m₁ m' : Machine T}
    (hinstr : env.instrAt m.ip = some instr) (hsite : instr.op.callSite = some site)
    (htail : site.results = none)
    (hresolve : resolveSite env site m = .ok (results, .host func entity, pulled) m₁)
    (hcall : executeCallee env ⟨.tail, site.hasParams⟩ results (.host func entity) m₁ = .ok () m') :
    Astray env m' := by
  intro instr' hinstr'
  rcases tailHost_ip hcall with ⟨-, hip⟩ | hparam
  · rcases resolveSite_ip hresolve with hip' | hparam'
    · rw [hip, hip', hinstr] at hinstr'
      obtain rfl := Option.some.inj hinstr'
      exact .inr ⟨_, hsite, htail⟩
    · rw [hip] at hinstr'
      exact .inl (hparam' instr' hinstr')
  · exact .inl (hparam instr' hinstr')

/-- The pointer to the frame is at the topmost one, or the loop is on a tail call. -/
theorem framed_or_astray {m m' : Machine T} (h : Framed m ∨ Astray env m)
    (hone : Continues env m m') : Framed m' ∨ Astray env m' := by
  obtain ⟨instr, hinstr, hexec⟩ := executeOne_eq_ok.mp hone
  cases hcall : instr.op.callSite with
  | some site =>
    rw [executeOp_callSite hcall] at hexec
    obtain ⟨pulled, m₁, hsite, hflow⟩ := bind_eq_ok.mp hexec
    cases hflow
    obtain ⟨results, target, m₁, hresolve, hcallee⟩ := executeSite_eq_ok.mp hsite
    cases target with
    | compiled body inst => exact .inl (framed_compiled hcallee)
    | host func entity =>
      cases hresults : site.results with
      | none =>
        rw [CallSite.context, hresults] at hcallee
        exact .inr (astray_tailHost hinstr hcall hresults hresolve hcallee)
      | some siteResults =>
        rw [CallSite.context, hresults] at hcallee
        have hframed : Framed m := by
          rcases h with hframed | hastray
          · exact hframed
          rcases hastray instr hinstr with hparam | ⟨site', hsite', htail⟩
          · rw [callSite_of_isParam hparam] at hcall
            cases hcall
          · rw [hcall] at hsite'
            obtain rfl := Option.some.inj hsite'
            rw [hresults] at htail
            cases htail
        have hstill := (keeps_still_resolveSite _ _).of_ok hresolve
        have hplaces : places m₁ = places m :=
          congrArg (fun s => (s.1, s.2.2.1.calls.frames.map (·.offsets))) hstill
        exact .inl (hframed.of_places ((places_nestedHost hcallee).trans hplaces))
  | none =>
    -- neither a tail call nor, as it goes on, a parameter word
    have hframed : Framed m := by
      rcases h with hframed | hastray
      · exact hframed
      rcases hastray instr hinstr with hparam | ⟨site, hsite, -⟩
      · rw [executeOp_param hparam] at hexec
        cases hexec
      · rw [hcall] at hsite
        cases hsite
    left
    cases hreturn : instr.op.isReturn with
    | false =>
      rw [executeOp_other hcall hreturn] at hexec
      obtain ⟨_, m₁, hother, hflow⟩ := bind_eq_ok.mp hexec
      cases hflow
      exact hframed.of_places ((keepsPlaces_executeOther _).of_ok hother)
    | true =>
      rw [executeOp_return hreturn] at hexec
      cases hnow : returnsNow instr.op m.toLocal with
      | true =>
        obtain ⟨values, m₁, -, hfinish⟩ := (executeReturn_eq_ok hreturn hnow).mp hexec
        obtain ⟨_, _, _, written, -, -, -, hret⟩ := finishReturn_eq_ok.mp hfinish
        exact framed_returnImpl hret
      | false =>
        obtain ⟨hskip, -⟩ := (executeReturn_skip hreturn hnow).mp hexec
        exact hframed.of_places ((keepsPlaces_stepLocal _).of_ok hskip)

end Executor

end MotokoDebugger
