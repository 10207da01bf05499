import ChronosKeeper.Engine.Discovery

/-!
# What the classification dispatches

`Dispatches` says what the engine does with a discovered task: the first transaction it submits,
against an in-flight set that answers its tests and insertions, is the envelope of a role. The
envelope names its role, so a task is dispatched in one role at most
(`buildSignedTransaction_injective`).

`decision` is the role as a function of the schedule, the ledger and whether this node is the
designated keeper; the components of the engine together compute it
(`dispatches_iff_decision`).
-/

set_option autoImplicit false

namespace ChronosKeeper.Engine

open ChronosKeeper.Foundations

/-- The answers of the shared state while no other party is at work. The RPC endpoint and the
clock do not answer. -/
def InFlightSet.answer : (op : EngineOp) → InFlightSet → Option (op.Reply × InFlightSet)
  | .containsInFlight taskId, s => some (s.contains taskId, s)
  | .insertInFlight taskId, s => some (s.insert taskId)
  | .removeInFlight taskId, s => some ((), s.remove taskId)
  | .sleep _, s => some ((), s)
  | .storeLastConfirmedTs _, s => some ((), s)
  | .log _, s => some ((), s)
  | .postSendTransaction _, _ => none
  | .postGetTransaction _, _ => none
  | .unixTime, _ => none
  | .abort, _ => none

/-- A submission is observed as the envelope it submits. -/
def submitted : EngineOp → Option String
  | .postSendTransaction transaction => some transaction
  | _ => none

/-- The first envelope the program submits. -/
def firstSubmission (x : EngineM Unit) (s : InFlightSet) : Option String :=
  x.observe InFlightSet.answer submitted s

/-- At the current ledger, the engine around the pipeline dispatches the task in the role. -/
def Dispatches (crates : Crates) (p : Profile) (pipeline : ExecutionPipeline) (task : RemoteTask)
    (currentLedger : U32) (s : InFlightSet) (role : ExecutionRole) : Prop :=
  firstSubmission ((TaskDiscovery.wired pipeline).classifyAndDispatch crates p task currentLedger)
    s = some (pipeline.buildSignedTransaction crates task role)

variable {crates : Crates} {p : Profile} {pipeline : ExecutionPipeline} {task : RemoteTask}
  {currentLedger : U32} {s : InFlightSet} {role : ExecutionRole}

/-! ## The envelope names its role -/

theorem ExecutionRole.debug_append_injective {r r' : ExecutionRole} {t t' : String}
    (h : r.debug ++ t = r'.debug ++ t') : r = r' := by
  -- The first letters of the three names differ.
  have hlist := congrArg (fun u => u.toList.head?) h
  simp only [String.toList_append] at hlist
  cases r <;> cases r' <;> first | rfl | (simp [ExecutionRole.debug] at hlist)

theorem ExecutionPipeline.buildSignedTransaction_injective {r r' : ExecutionRole}
    (h : pipeline.buildSignedTransaction crates task r =
      pipeline.buildSignedTransaction crates task r') : r = r' := by
  unfold ExecutionPipeline.buildSignedTransaction ExecutionPipeline.invocation at h
  simp only [String.append_assoc, String.append_right_inj] at h
  exact ExecutionRole.debug_append_injective h

/-! ## What is submitted first -/

/-- A dispatch of a task that is not in flight submits it. -/
theorem firstSubmission_dispatch (hs : parseTaskId crates task.taskIdHex ∉ s) :
    firstSubmission (pipeline.dispatch crates task role) s =
      some (pipeline.buildSignedTransaction crates task role) := by
  unfold ExecutionPipeline.dispatch firstSubmission
  simp only [insertInFlight_bind]
  rw [Program.observe_perform rfl rfl, decide_eq_true hs]
  simp only [Bool.not_true, Bool.false_eq_true, if_false]
  unfold ExecutionPipeline.executeWithRetry ExecutionPipeline.attemptsFrom
    RpcClient.sendTransaction
  exact Program.observe_of_seen rfl

theorem firstSubmission_log (entry : LogEntry) (x : EngineM Unit) :
    firstSubmission (log entry >>= fun _ => x) s = firstSubmission x s := by
  unfold firstSubmission
  rw [log_bind, Program.observe_perform rfl rfl]

/-- A test of the set is answered by what is in it. -/
theorem firstSubmission_contains (taskId : TaskId) (f : Bool → EngineM Unit) :
    firstSubmission (containsInFlight taskId >>= f) s =
      firstSubmission (f (decide (taskId ∈ s))) s := by
  unfold firstSubmission
  rw [containsInFlight_bind, Program.observe_perform rfl rfl]
  rfl

/-- In the grace period, at most 50 ledgers have elapsed. -/
theorem not_fifty_lt_elapsed (hopen : task.nextAllowedExecution.val < currentLedger.val)
    (hend : currentLedger.val ≤ task.nextAllowedExecution.val + 50) :
    ¬ 50 < currentLedger.saturatingSub task.nextAllowedExecution := by
  have hrange : IntTy.u32.InRange (currentLedger.val - task.nextAllowedExecution.val) := by
    have hcurrent := currentLedger.bounds
    rw [IntTy.inRange_u32]
    omega
  have hval : (currentLedger.saturatingSub task.nextAllowedExecution).val = _ :=
    MachineInt.val_clamp_of_inRange hrange
  have hfifty : (50 : U32).val = 50 := rfl
  rw [MachineInt.lt_iff, hval, hfifty]
  omega

/-- In the grace period, the monitor submits the task in the secondary role unless this node is
its designated keeper. -/
theorem firstSubmission_evaluate {monitor : GraceMonitor}
    (hs : parseTaskId crates task.taskIdHex ∉ s)
    (hopen : task.nextAllowedExecution.val < currentLedger.val)
    (hend : currentLedger.val ≤ task.nextAllowedExecution.val + 50) :
    firstSubmission (monitor.evaluate crates task currentLedger) s =
      if task.designatedKeeper = monitor.keeperAddress then none
      else some (monitor.pipeline.buildSignedTransaction crates task .secondary) := by
  have helapsed := not_fifty_lt_elapsed hopen hend
  unfold GraceMonitor.evaluate
  simp only [helapsed, if_false, eq_comm (a := monitor.keeperAddress)]
  split
  · rfl
  · rw [firstSubmission_contains,
      decide_eq_false (show parseTaskIdHex crates task.taskIdHex ∉ s from hs)]
    simp only [Bool.false_eq_true, if_false]
    rw [firstSubmission_log]
    exact firstSubmission_dispatch hs

/-! ## The decision -/

/-- The role in which the engine takes on a task scheduled for `next`. -/
def decision (p : Profile) (next current : U32) (isDesignated : Bool) : Option ExecutionRole :=
  if current = next ∧ isDesignated = true then some .designated
  else
    match p.add next 50 with
    | none => none
    | some graceEnd =>
        if next < current ∧ current ≤ graceEnd then
          if isDesignated then none else some .secondary
        else if graceEnd < current then some .postGrace
        else none

/-- The end of the grace period as the code computes it, exact or wrapped. -/
theorem val_of_graceEnd {next graceEnd : U32} (h : p.add next 50 = some graceEnd) :
    graceEnd.val = next.val + 50 ∨
      (4294967295 < next.val + 50 ∧ graceEnd.val = next.val + 50 - 4294967296) := by
  have hnext := next.bounds
  by_cases hfits : next.val + 50 ≤ 4294967295
  · have hrange : IntTy.u32.InRange (next.val + (50 : U32).val) :=
      IntTy.inRange_u32.2 ⟨by have : (50 : U32).val = 50 := rfl; omega, hfits⟩
    exact Or.inl (Profile.val_of_fit (Or.inr hrange) h)
  · cases p with
    | debug => exact Or.inl (Profile.val_of_fit_debug h)
    | release =>
        cases h
        refine Or.inr ⟨by omega, ?_⟩
        show 0 + (next.val + 50 - 0) % 4294967296 = _
        omega

/-- The second condition of the classification, once the addition has a result. -/
theorem withinGrace_of_some {next current graceEnd : U32} (h : p.add next 50 = some graceEnd) :
    withinGrace p next current = .done (decide (next < current ∧ current ≤ graceEnd)) := by
  unfold withinGrace
  rw [h]
  by_cases hopen : next < current
  · simp only [hopen, if_true, true_and]
    rfl
  · simp only [hopen, if_false, false_and, decide_false]
    rfl

theorem firstSubmission_withinGrace_of_none {next current : U32} (h : p.add next 50 = none)
    (f : Bool → EngineM Unit) (hf : firstSubmission (f false) s = none) :
    firstSubmission (withinGrace p next current >>= f) s = none := by
  unfold withinGrace
  rw [h]
  split
  · rfl
  · exact hf

/-- The components of the engine together compute the decision. -/
theorem firstSubmission_classifyAndDispatch
    (hs : parseTaskId crates task.taskIdHex ∉ s) :
    firstSubmission
        ((TaskDiscovery.wired pipeline).classifyAndDispatch crates p task currentLedger) s =
      (decision p task.nextAllowedExecution currentLedger
        (decide (task.designatedKeeper = pipeline.keeperAddress))).map
          (pipeline.buildSignedTransaction crates task) := by
  unfold TaskDiscovery.classifyAndDispatch decision
  rw [firstSubmission_contains, decide_eq_false (show parseHex crates task.taskIdHex ∉ s from hs)]
  simp only [Bool.false_eq_true, if_false, decide_eq_true_eq]
  -- The branches of the code against those of the decision, one comparison at a time.
  by_cases hdesignated : currentLedger = task.nextAllowedExecution ∧
      task.designatedKeeper = pipeline.keeperAddress
  · rw [if_pos hdesignated, Option.map_some]
    refine (congrArg (firstSubmission · s) (if_pos hdesignated)).trans ?_
    exact firstSubmission_dispatch hs
  rw [if_neg hdesignated]
  refine (congrArg (firstSubmission · s) (if_neg hdesignated)).trans ?_
  cases hadd : p.add task.nextAllowedExecution 50 with
  | none => exact firstSubmission_withinGrace_of_none hadd _ rfl
  | some graceEnd =>
      rw [withinGrace_of_some hadd, Program.done_bind]
      simp only [decide_eq_true_eq]
      by_cases hgrace : task.nextAllowedExecution < currentLedger ∧ currentLedger ≤ graceEnd
      · have hend : currentLedger.val ≤ task.nextAllowedExecution.val + 50 := by
          have hgraceEnd := val_of_graceEnd hadd
          have hle := MachineInt.le_iff.1 hgrace.2
          have hlt := MachineInt.lt_iff.1 hgrace.1
          have hcurrent := currentLedger.bounds
          omega
        rw [if_pos hgrace, if_pos hgrace]
        refine (firstSubmission_evaluate hs hgrace.1 hend).trans ?_
        show (if task.designatedKeeper = pipeline.keeperAddress then _ else _) = _
        split <;> rfl
      · rw [if_neg hgrace, if_neg hgrace]
        by_cases hpost : graceEnd < currentLedger
        · rw [if_pos hpost]
          show firstSubmission (if graceEnd < currentLedger then _ else _) s = _
          rw [if_pos hpost]
          exact (firstSubmission_log _ _).trans (firstSubmission_dispatch hs)
        · rw [if_neg hpost]
          show firstSubmission (if graceEnd < currentLedger then _ else _) s = _
          rw [if_neg hpost]
          rfl

theorem dispatches_iff_decision (hs : parseTaskId crates task.taskIdHex ∉ s) :
    Dispatches crates p pipeline task currentLedger s role ↔
      decision p task.nextAllowedExecution currentLedger
        (decide (task.designatedKeeper = pipeline.keeperAddress)) = some role := by
  unfold Dispatches
  rw [firstSubmission_classifyAndDispatch hs, Option.map_eq_some_iff]
  constructor
  · rintro ⟨r, hr, henvelope⟩
    rw [hr, ExecutionPipeline.buildSignedTransaction_injective henvelope]
  · intro h
    exact ⟨role, h, rfl⟩

end ChronosKeeper.Engine
