import ChronosKeeper.Engine.Concurrency
import ChronosKeeper.Engine.Decision
import ChronosKeeper.Foundations.Guarantees

/-!
# A single dispatcher

The discovery loop visits the discovered tasks one after the other, and nothing else in the engine
dispatches. `Solo` says what each operation meets then: the set is empty when a visit tests or
inserts, it holds exactly the task at hand while that is submitted and confirmed, and only a task
that the query has found is submitted, in the role that `decision` gives for the ledger.

The guarantees follow the program from the attempts (`all_attemptsFrom_sends`) over the dispatch
and the visit to the whole advance (`guarantees_onLedgerAdvance`).
-/

set_option autoImplicit false

namespace ChronosKeeper.Engine

open ChronosKeeper.Foundations

/-! ## The operations of an attempt -/

/-- The operation waits, reads the clock, or records what has happened. -/
def EngineOp.IsWaiting : EngineOp → Prop
  | .postGetTransaction _ => True
  | .sleep _ => True
  | .unixTime => True
  | .storeLastConfirmedTs _ => True
  | .log _ => True
  | _ => False

/-- The operation belongs to the attempts with one envelope. -/
def EngineOp.Sends (envelope : String) (op : EngineOp) : Prop :=
  op.IsWaiting ∨ op = .abort ∨ op = .postSendTransaction envelope

variable {crates : Crates} {p : Profile} {pipeline : ExecutionPipeline} {task : RemoteTask}
  {taskId : TaskId} {currentLedger : U32} {role : ExecutionRole} {hash : TxHash}
  {s s' : InFlightSet}

/-- By induction on the time that is left. -/
theorem all_pollUntilFinal_isWaiting (interval : Duration) (hpos : 0 < interval.nanos)
    (remaining : Nat) :
    (pipeline.pollUntilFinal hash interval hpos remaining).All EngineOp.IsWaiting := by
  induction remaining using Nat.strong_induction_on with
  | _ remaining ih =>
      have hget : (RpcClient.getTransaction hash).All EngineOp.IsWaiting :=
        ⟨trivial, fun _ => trivial⟩
      unfold ExecutionPipeline.pollUntilFinal
      apply hget.bind
      intro reply
      split
      · trivial
      split
      · split
        · trivial
        · refine ⟨trivial, fun _ => ?_⟩
          split
          · exact ih _ (by omega)
          · trivial
      · trivial

theorem all_awaitOutcome_isWaiting :
    (pipeline.awaitOutcome task role hash).All EngineOp.IsWaiting := by
  unfold ExecutionPipeline.awaitOutcome ExecutionPipeline.waitForConfirmation
  apply (all_pollUntilFinal_isWaiting _ _ _).bind
  intro outcome
  split
  · split
    · exact ⟨trivial, fun _ => ⟨trivial, fun _ => ⟨trivial, fun _ => trivial⟩⟩⟩
    · exact ⟨trivial, fun _ => trivial⟩
  · exact ⟨trivial, fun _ => trivial⟩
  · exact ⟨trivial, fun _ => trivial⟩

/-- Every attempt submits the envelope of the task in the role, and nothing else. By induction on
the attempts that are left. -/
theorem all_attemptsFrom_sends {attempt left : Nat} {backoff : Duration} :
    (pipeline.attemptsFrom crates task role attempt backoff left).All
      (EngineOp.Sends (pipeline.buildSignedTransaction crates task role)) := by
  have hawait : ∀ hash, (pipeline.awaitOutcome task role hash).All
      (EngineOp.Sends (pipeline.buildSignedTransaction crates task role)) := fun hash =>
    all_awaitOutcome_isWaiting.imp fun _ => Or.inl
  have hsend : (RpcClient.sendTransaction (pipeline.buildSignedTransaction crates task role)).All
      (EngineOp.Sends (pipeline.buildSignedTransaction crates task role)) :=
    ⟨Or.inr (Or.inr rfl), fun _ => trivial⟩
  induction left generalizing attempt backoff with
  | zero =>
      unfold ExecutionPipeline.attemptsFrom
      apply hsend.bind
      intro result
      split
      · exact hawait _
      · exact ⟨Or.inl trivial, fun _ => trivial⟩
      · exact ⟨Or.inl trivial, fun _ => trivial⟩
  | succ left ih =>
      unfold ExecutionPipeline.attemptsFrom
      apply hsend.bind
      intro result
      split
      · exact hawait _
      · refine ⟨Or.inl trivial, fun _ => ⟨Or.inl trivial, fun _ => ?_⟩⟩
        split
        · exact ⟨Or.inr (Or.inl rfl), fun r => r.elim⟩
        · exact ih
      · exact ⟨Or.inl trivial, fun _ => trivial⟩

/-! ## A visit -/

/-- The envelope is that of one of the tasks, in the role that is decided on at the ledger, and
this task is the only one in flight. -/
def Justified (crates : Crates) (p : Profile) (pipeline : ExecutionPipeline)
    (tasks : List RemoteTask) (currentLedger : U32) (envelope : String) (s : InFlightSet) : Prop :=
  ∃ task ∈ tasks, ∃ role,
    decision p task.nextAllowedExecution currentLedger
      (decide (task.designatedKeeper = pipeline.keeperAddress)) = some role ∧
    envelope = pipeline.buildSignedTransaction crates task role ∧
    s = {parseTaskId crates task.taskIdHex}

/-- What an operation meets in the set when nobody else uses it. -/
def Solo (crates : Crates) (p : Profile) (pipeline : ExecutionPipeline)
    (tasks : List RemoteTask) (currentLedger : U32) : EngineOp → InFlightSet → Prop
  | .containsInFlight _, s => s = ∅
  | .insertInFlight taskId, s => s = ∅ ∧ ∃ task ∈ tasks, taskId = parseTaskId crates task.taskIdHex
  | .removeInFlight taskId, s => s = {taskId}
  | .postSendTransaction envelope, s =>
      Justified crates p pipeline tasks currentLedger envelope s
  | .postGetTransaction _, s => ∃ task ∈ tasks, s = {parseTaskId crates task.taskIdHex}
  | .storeLastConfirmedTs _, s => ∃ task ∈ tasks, s = {parseTaskId crates task.taskIdHex}
  | _, _ => True

/-- More tasks justify more. -/
theorem Solo.mono {tasks tasks' : List RemoteTask} (hsub : tasks ⊆ tasks') {op : EngineOp}
    (h : Solo crates p pipeline tasks currentLedger op s) :
    Solo crates p pipeline tasks' currentLedger op s := by
  cases op with
  | insertInFlight taskId =>
      obtain ⟨hs, task, htask, htaskId⟩ := h
      exact ⟨hs, task, hsub htask, htaskId⟩
  | postSendTransaction envelope =>
      obtain ⟨task, htask, hrest⟩ := h
      exact ⟨task, hsub htask, hrest⟩
  | postGetTransaction hash =>
      obtain ⟨task, htask, hrest⟩ := h
      exact ⟨task, hsub htask, hrest⟩
  | storeLastConfirmedTs ts =>
      obtain ⟨task, htask, hrest⟩ := h
      exact ⟨task, hsub htask, hrest⟩
  | _ => exact h

variable {tasks : List RemoteTask}

/-- A dispatch in the role that is decided on: the task is inserted, submitted and removed. -/
theorem guarantees_dispatch (htask : task ∈ tasks)
    (hrole : decision p task.nextAllowedExecution currentLedger
      (decide (task.designatedKeeper = pipeline.keeperAddress)) = some role) :
    (pipeline.dispatch crates task role).Guarantees InFlightSet.Answers
      (Solo crates p pipeline tasks currentLedger) (fun _ s => s = ∅) ∅ := by
  unfold ExecutionPipeline.dispatch
  rw [insertInFlight_bind]
  refine ⟨⟨rfl, task, htask, rfl⟩, fun inserted s₁ hinsert => ?_⟩
  obtain ⟨rfl, rfl⟩ := Prod.mk.inj hinsert
  -- nothing is in flight, so the insertion wins
  rw [decide_eq_true (Finset.notMem_empty _)]
  simp only [Bool.not_true, Bool.false_eq_true, if_false]
  unfold ExecutionPipeline.executeWithRetry
  apply Program.Guarantees.bind (R := fun _ s => s = {parseTaskId crates task.taskIdHex})
  · apply Program.Guarantees.of_all all_attemptsFrom_sends
    · rintro op (hop | rfl | rfl)
      · cases op with
        | postGetTransaction hash => exact ⟨task, htask, rfl⟩
        | storeLastConfirmedTs ts => exact ⟨task, htask, rfl⟩
        | sleep duration => trivial
        | unixTime => trivial
        | log entry => trivial
        | _ => exact hop.elim
      · trivial
      · exact ⟨task, htask, role, hrole, rfl, rfl⟩
    · rintro op r s' (hop | rfl | rfl) hanswer
      · cases op with
        | containsInFlight => exact hop.elim
        | insertInFlight => exact hop.elim
        | removeInFlight => exact hop.elim
        | _ => exact hanswer
      · exact hanswer
      · exact hanswer
  · rintro _ s rfl
    refine ⟨rfl, fun _ s' hremove => ?_⟩
    have hs' : s' = ({parseTaskId crates task.taskIdHex} : InFlightSet).erase _ := hremove
    rw [Finset.erase_singleton] at hs'
    exact hs'

theorem guarantees_log (entry : LogEntry) {x : EngineM Unit} {Q : Unit → InFlightSet → Prop}
    (hx : x.Guarantees InFlightSet.Answers (Solo crates p pipeline tasks currentLedger) Q s) :
    (log entry >>= fun _ => x).Guarantees InFlightSet.Answers
      (Solo crates p pipeline tasks currentLedger) Q s := by
  rw [log_bind]
  refine ⟨trivial, fun _ s' hanswer => ?_⟩
  obtain rfl : s' = s := hanswer
  exact hx

/-- With an empty set, a test finds nothing. -/
theorem guarantees_contains {f : Bool → EngineM Unit} {Q : Unit → InFlightSet → Prop}
    (hf : (f false).Guarantees InFlightSet.Answers (Solo crates p pipeline tasks currentLedger)
      Q ∅) :
    (containsInFlight taskId >>= f).Guarantees InFlightSet.Answers
      (Solo crates p pipeline tasks currentLedger) Q ∅ := by
  rw [containsInFlight_bind]
  refine ⟨rfl, ?_⟩
  rintro found s' ⟨rfl, rfl⟩
  have hfound : InFlightSet.contains ∅ taskId = false := decide_eq_false (Finset.notMem_empty _)
  rw [hfound]
  exact hf

/-- What the code takes for a ledger of the grace period is one, also where its end has wrapped. -/
theorem le_of_inGrace {next graceEnd : U32} (hadd : p.add next 50 = some graceEnd)
    (hgrace : next < currentLedger ∧ currentLedger ≤ graceEnd) :
    currentLedger.val ≤ next.val + 50 := by
  have hgraceEnd := val_of_graceEnd hadd
  have hle := MachineInt.le_iff.1 hgrace.2
  have hlt := MachineInt.lt_iff.1 hgrace.1
  have hcurrent := currentLedger.bounds
  omega

/-- The grace monitor, at a ledger within the grace period. -/
theorem guarantees_evaluate (htask : task ∈ tasks)
    (hopen : task.nextAllowedExecution.val < currentLedger.val)
    (hend : currentLedger.val ≤ task.nextAllowedExecution.val + 50)
    (hrole : task.designatedKeeper ≠ pipeline.keeperAddress →
      decision p task.nextAllowedExecution currentLedger
        (decide (task.designatedKeeper = pipeline.keeperAddress)) = some .secondary) :
    ((TaskDiscovery.wired pipeline).graceMonitor.evaluate crates task currentLedger).Guarantees
      InFlightSet.Answers (Solo crates p pipeline tasks currentLedger) (fun _ s => s = ∅) ∅ := by
  unfold GraceMonitor.evaluate
  simp only [not_fifty_lt_elapsed hopen hend, if_false]
  split
  · exact rfl
  · rename_i hkeeper
    apply guarantees_contains
    simp only [Bool.false_eq_true, if_false]
    apply guarantees_log
    exact guarantees_dispatch htask (hrole (Ne.symm hkeeper))

/-- A visit, by the comparisons that the code and the decision make. -/
theorem guarantees_classifyAndDispatch (htask : task ∈ tasks) :
    ((TaskDiscovery.wired pipeline).classifyAndDispatch crates p task currentLedger).Guarantees
      InFlightSet.Answers (Solo crates p pipeline tasks currentLedger) (fun _ s => s = ∅) ∅ := by
  unfold TaskDiscovery.classifyAndDispatch
  apply guarantees_contains
  simp only [Bool.false_eq_true, if_false]
  by_cases hdesignated : currentLedger = task.nextAllowedExecution ∧
      task.designatedKeeper = (TaskDiscovery.wired pipeline).keeperAddress
  · rw [if_pos hdesignated]
    apply guarantees_dispatch htask
    unfold decision
    rw [if_pos ⟨hdesignated.1, decide_eq_true hdesignated.2⟩]
  rw [if_neg hdesignated]
  have hdecision : ¬ (currentLedger = task.nextAllowedExecution ∧
      decide (task.designatedKeeper = pipeline.keeperAddress) = true) := fun h =>
    hdesignated ⟨h.1, of_decide_eq_true h.2⟩
  cases hadd : p.add task.nextAllowedExecution 50 with
  | none =>
      -- the addition aborts, or is not reached
      unfold withinGrace
      rw [hadd]
      split
      · exact ⟨trivial, fun r => r.elim⟩
      · exact ⟨trivial, fun r => r.elim⟩
  | some graceEnd =>
      rw [withinGrace_of_some hadd, Program.done_bind]
      by_cases hgrace : task.nextAllowedExecution < currentLedger ∧ currentLedger ≤ graceEnd
      · have hend := le_of_inGrace hadd hgrace
        rw [decide_eq_true hgrace, if_pos rfl]
        apply guarantees_evaluate htask hgrace.1 hend
        intro hkeeper
        unfold decision
        rw [if_neg hdecision, hadd]
        simp only [if_pos hgrace, decide_eq_false hkeeper, Bool.false_eq_true, if_false]
      · rw [decide_eq_false hgrace, if_neg Bool.false_ne_true]
        show (if graceEnd < currentLedger then _ else _ : EngineM Unit).Guarantees _ _ _ _
        by_cases hpost : graceEnd < currentLedger
        · rw [if_pos hpost]
          apply guarantees_log
          apply guarantees_dispatch htask
          unfold decision
          rw [if_neg hdecision, hadd]
          simp only [if_neg hgrace, if_pos hpost]
        · rw [if_neg hpost]
          exact rfl

/-! ## An advance -/

/-- By induction on the tasks: each visit leaves the set empty for the next one. -/
theorem guarantees_dispatchTasks :
    ((TaskDiscovery.wired pipeline).dispatchTasks crates p currentLedger tasks).Guarantees
      InFlightSet.Answers (Solo crates p pipeline tasks currentLedger) (fun _ s => s = ∅) ∅ := by
  induction tasks with
  | nil => exact rfl
  | cons task rest ih =>
      unfold TaskDiscovery.dispatchTasks
      apply (guarantees_classifyAndDispatch (List.mem_cons_self ..)).bind
      rintro _ s rfl
      exact ih.imp (fun _ _ h => h.mono (List.subset_cons_self task rest)) fun _ _ h => h

/-- The tasks that a query has found. -/
def TaskQuery.found : TaskQuery → List RemoteTask
  | .tasks tasks => tasks
  | _ => []

theorem guarantees_onLedgerAdvance (query : TaskQuery) :
    ((TaskDiscovery.wired pipeline).onLedgerAdvance crates p query currentLedger).Guarantees
      InFlightSet.Answers (Solo crates p pipeline query.found currentLedger)
      (fun _ s => s = ∅) ∅ := by
  have hlog : ∀ entry, (log entry).Guarantees InFlightSet.Answers
      (Solo crates p pipeline [] currentLedger) (fun _ s => s = ∅) ∅ :=
    fun entry => ⟨trivial, fun _ _ hanswer => hanswer⟩
  cases query with
  | tasks tasks =>
      show (TaskDiscovery.logDiscovered currentLedger tasks >>= fun _ =>
        (TaskDiscovery.wired pipeline).dispatchTasks crates p currentLedger tasks).Guarantees _ _ _ _
      unfold TaskDiscovery.logDiscovered
      split
      · exact guarantees_dispatchTasks
      · exact guarantees_log _ guarantees_dispatchTasks
  | error e => exact hlog _
  | elapsed => exact hlog _

end ChronosKeeper.Engine
