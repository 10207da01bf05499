import ChronosKeeper.Engine.Discovery

/-!
# What a dispatch does to the in-flight set

A dispatch tests the in-flight set, inserts its identifier, and if the insertion wins, works and
then removes it: `Enters` and `Releases` say this of a program whatever the replies. Every exit of
the retry loop is part of the work, so every one of them reaches the removal.
-/

set_option autoImplicit false

namespace ChronosKeeper.Engine

open ChronosKeeper.Foundations

/-! ## The shapes of the programs -/

/-- The operation does not use the in-flight set. -/
def EngineOp.IsWork : EngineOp → Prop
  | .containsInFlight _ => False
  | .insertInFlight _ => False
  | .removeInFlight _ => False
  | _ => True

/-- The operation comes before a dispatch: a test of its own identifier, a log entry or an
abort. -/
def EngineOp.IsCheck (taskId : TaskId) : EngineOp → Prop
  | .containsInFlight t => t = taskId
  | .log _ => True
  | .abort => True
  | _ => False

/-- Whatever the replies, the program works without using the in-flight set and then, as its
last operation, removes the identifier. -/
inductive Releases (taskId : TaskId) : EngineM Unit → Prop
  | remove {next : Unit → EngineM Unit} (hlast : next () = .done ()) :
      Releases taskId (.perform (.removeInFlight taskId) next)
  | perform {op : EngineOp} {next : op.Reply → EngineM Unit} (hop : op.IsWork)
      (hnext : ∀ r, Releases taskId (next r)) : Releases taskId (.perform op next)

/-- Whatever the replies, the program first checks, and then returns or inserts the identifier. A
refused insertion is its last operation; an insertion that wins is followed by work that
releases. -/
inductive Enters (taskId : TaskId) : EngineM Unit → Prop
  | done : Enters taskId (.done ())
  | insert {next : Bool → EngineM Unit} (hrefused : next false = .done ())
      (hwon : Releases taskId (next true)) :
      Enters taskId (.perform (.insertInFlight taskId) next)
  | perform {op : EngineOp} {next : op.Reply → EngineM Unit} (hop : op.IsCheck taskId)
      (hnext : ∀ r, Enters taskId (next r)) : Enters taskId (.perform op next)

variable {crates : Crates} {p : Profile} {pipeline : ExecutionPipeline} {task : RemoteTask}
  {taskId : TaskId} {currentLedger : U32} {role : ExecutionRole}

/-- Work followed by the removal. -/
theorem releases_of_all {x : EngineM Unit} (hx : x.All EngineOp.IsWork) :
    Releases taskId (x >>= fun _ => removeInFlight taskId) := by
  induction x with
  | done a => exact .remove rfl
  | perform op next ih => exact .perform hx.1 fun r => ih r (hx.2 r)

/-! ## The work of a dispatch -/

section Work

variable {P : EngineOp → Prop} {hash : TxHash}

/-- The property holds of all work that is not an abort. -/
def CoversWork (P : EngineOp → Prop) : Prop := ∀ op : EngineOp, op.IsWork → op ≠ .abort → P op

theorem coversWork_isWork : CoversWork EngineOp.IsWork := fun _ h _ => h

theorem all_getTransaction (hP : CoversWork P) : (RpcClient.getTransaction hash).All P := by
  have hop : P (.postGetTransaction hash) := hP _ trivial (by simp)
  exact (Program.All.request hop).bind fun _ => trivial

theorem all_sendTransaction (hP : CoversWork P) (envelope : String) :
    (RpcClient.sendTransaction envelope).All P := by
  have hop : P (.postSendTransaction envelope) := hP _ trivial (by simp)
  exact (Program.All.request hop).bind fun _ => trivial

theorem all_sleep (hP : CoversWork P) (duration : Duration) : (sleep duration).All P :=
  Program.All.request (hP _ trivial (by simp))

theorem all_log (hP : CoversWork P) (entry : LogEntry) : (log entry).All P :=
  Program.All.request (hP _ trivial (by simp))

/-- By induction on the time that is left: a poll is repeated with less of it. -/
theorem all_pollUntilFinal (hP : CoversWork P) (interval : Duration)
    (hpos : 0 < interval.nanos) (remaining : Nat) :
    (pipeline.pollUntilFinal hash interval hpos remaining).All P := by
  induction remaining using Nat.strong_induction_on with
  | _ remaining ih =>
      unfold ExecutionPipeline.pollUntilFinal
      apply (all_getTransaction hP).bind
      intro reply
      split
      · trivial
      split
      · split
        · trivial
        · apply (all_sleep hP interval).bind
          intro _
          split
          · exact ih _ (by omega)
          · trivial
      · trivial

theorem all_awaitOutcome (hP : CoversWork P) : (pipeline.awaitOutcome task role hash).All P := by
  unfold ExecutionPipeline.awaitOutcome ExecutionPipeline.waitForConfirmation
  apply (all_pollUntilFinal hP _ _ _).bind
  intro outcome
  split
  · split
    · refine ⟨hP _ trivial (by simp), fun _ => ⟨hP _ trivial (by simp), fun _ => ?_⟩⟩
      exact all_log hP _
    · exact all_log hP _
  · exact all_log hP _
  · exact all_log hP _

/-- A doubling of a back-off in the range either overflows, and is then followed by an abort, or
stays in the range. By induction on the attempts that are left. -/
theorem all_attemptsFrom (hP : CoversWork P) (range : Duration → Prop)
    (hoverflow : ∀ backoff, range backoff → backoff.double = none → P .abort)
    (hdouble : ∀ backoff doubled, range backoff → backoff.double = some doubled →
      range (doubled.min pipeline.retryBackoffMax))
    {attempt left : Nat} {backoff : Duration} (hbackoff : range backoff) :
    (pipeline.attemptsFrom crates task role attempt backoff left).All P := by
  induction left generalizing attempt backoff with
  | zero =>
      unfold ExecutionPipeline.attemptsFrom
      apply (all_sendTransaction hP _).bind
      intro outcome
      split
      · exact all_awaitOutcome hP
      · exact all_log hP _
      · exact all_log hP _
  | succ left ih =>
      unfold ExecutionPipeline.attemptsFrom
      apply (all_sendTransaction hP _).bind
      intro outcome
      split
      · exact all_awaitOutcome hP
      · apply (all_log hP _).bind
        intro _
        apply (all_sleep hP backoff).bind
        intro _
        split
        · exact ⟨hoverflow backoff hbackoff ‹_›, fun r => r.elim⟩
        · exact ih (hdouble backoff _ hbackoff ‹_›)
      · exact all_log hP _

theorem all_attemptsFrom_isWork {attempt left : Nat} {backoff : Duration} :
    (pipeline.attemptsFrom crates task role attempt backoff left).All EngineOp.IsWork :=
  all_attemptsFrom coversWork_isWork (fun _ => True) (fun _ _ _ => trivial)
    (fun _ _ _ _ => trivial) trivial

end Work

/-! ## The calls -/

theorem enters_dispatch (htaskId : parseTaskId crates task.taskIdHex = taskId) :
    Enters taskId (pipeline.dispatch crates task role) := by
  unfold ExecutionPipeline.dispatch
  rw [insertInFlight_bind]
  subst htaskId
  exact .insert rfl (releases_of_all all_attemptsFrom_isWork)

theorem enters_log {x : EngineM Unit} (entry : LogEntry) (hx : Enters taskId x) :
    Enters taskId (log entry >>= fun _ => x) :=
  .perform trivial fun _ => hx

theorem enters_logMissed : Enters taskId (GraceMonitor.logMissed task currentLedger) :=
  .perform trivial fun _ => .done

theorem enters_contains {f : Bool → EngineM Unit} (hf : ∀ found, Enters taskId (f found)) :
    Enters taskId (containsInFlight taskId >>= f) :=
  .perform rfl hf

theorem enters_evaluate {monitor : GraceMonitor}
    (htaskId : parseTaskId crates task.taskIdHex = taskId) :
    Enters taskId (monitor.evaluate crates task currentLedger) := by
  unfold GraceMonitor.evaluate
  dsimp only
  split
  · exact enters_logMissed
  split
  · exact .done
  · subst htaskId
    apply enters_contains
    intro found
    cases found with
    | true => exact .done
    | false => exact enters_log _ (enters_dispatch rfl)

theorem enters_arith {α : Type} {f : α → EngineM Unit} (o : Option α)
    (hf : ∀ a, Enters taskId (f a)) : Enters taskId (arith o >>= f) := by
  cases o with
  | none => exact .perform trivial fun r => r.elim
  | some a => exact hf a

theorem enters_withinGrace {f : Bool → EngineM Unit} (next : U32)
    (hf : ∀ inGrace, Enters taskId (f inGrace)) :
    Enters taskId (withinGrace p next currentLedger >>= f) := by
  unfold withinGrace
  split
  · cases p.add next 50 with
    | none => exact .perform trivial fun r => r.elim
    | some graceEnd => exact hf _
  · exact hf false

theorem enters_classifyAndDispatch {discovery : TaskDiscovery}
    (htaskId : parseTaskId crates task.taskIdHex = taskId) :
    Enters taskId (discovery.classifyAndDispatch crates p task currentLedger) := by
  unfold TaskDiscovery.classifyAndDispatch
  subst htaskId
  apply enters_contains
  intro found
  cases found with
  | true => exact .done
  | false =>
      dsimp only
      split
      · exact absurd ‹false = true› Bool.false_ne_true
      split
      · exact enters_dispatch rfl
      apply enters_withinGrace
      intro inGrace
      split
      · exact enters_evaluate rfl
      apply enters_arith
      intro graceEnd
      split
      · exact enters_log _ (enters_dispatch rfl)
      · exact .done

end ChronosKeeper.Engine
