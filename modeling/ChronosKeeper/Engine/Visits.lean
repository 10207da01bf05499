import ChronosKeeper.Engine.Retry
import ChronosKeeper.Engine.Concurrency
import ChronosKeeper.Engine.Decision

/-!
# Visits of the discovery loop

The discovery loop visits a task each time that a query at a ledger event has found it. `RunTrace`
divides a complete trace of the loop into these visits (`returns_run_iff`). A visit leaves the
in-flight set as it has found it (`Enters.answered_eq`), so each one starts as the loop has
started. Within the grace period it submits in one role only, through the retry loop
(`submitsAs_of_inGrace`, `submitsAs_of_overflow`), and every trace of that loop belongs to such a
visit (`returns_secondaryTrace`).
-/

set_option autoImplicit false

namespace ChronosKeeper.Engine

open ChronosKeeper.Foundations

variable {crates : Crates} {p : Profile} {pipeline : ExecutionPipeline}
  {discovery : TaskDiscovery} {task : RemoteTask} {role : ExecutionRole} {taskId : TaskId}
  {currentLedger : U32} {t : List EngineEvent} {s s' : InFlightSet}

/-! ## Visits -/

/-- A discovered task, the ledger at which it is discovered, and what the engine does then. -/
structure Visit where
  task : RemoteTask
  ledger : U32
  trace : List EngineEvent

/-- The visits to the tasks that one query has found. -/
inductive TasksTrace (crates : Crates) (p : Profile) (discovery : TaskDiscovery)
    (currentLedger : U32) : List RemoteTask → List Visit → List EngineEvent → Prop
  | nil : TasksTrace crates p discovery currentLedger [] [] []
  | cons {task : RemoteTask} {rest : List RemoteTask} {visits : List Visit}
      {t t' : List EngineEvent}
      (hvisit : (discovery.classifyAndDispatch crates p task currentLedger).Returns t ())
      (hrest : TasksTrace crates p discovery currentLedger rest visits t') :
      TasksTrace crates p discovery currentLedger (task :: rest)
        (⟨task, currentLedger, t⟩ :: visits) (t ++ t')

/-- The visits that one advance leads to. -/
inductive AdvanceTrace (crates : Crates) (p : Profile) (discovery : TaskDiscovery) (seq : U32) :
    TaskQuery → List Visit → List EngineEvent → Prop
  | tasks {tasks : List RemoteTask} {visits : List Visit} {t t' : List EngineEvent}
      (hlog : (TaskDiscovery.logDiscovered seq tasks).Returns t ())
      (hvisits : TasksTrace crates p discovery seq tasks visits t') :
      AdvanceTrace crates p discovery seq (.tasks tasks) visits (t ++ t')
  | error {e : EngineError} :
      AdvanceTrace crates p discovery seq (.error e) [] [⟨.log (.taskQueryError seq e), ()⟩]
  | elapsed :
      AdvanceTrace crates p discovery seq .elapsed [] [⟨.log (.taskQueryTimedOut seq), ()⟩]

/-- A complete trace of the loop, with the visits in it. -/
inductive RunTrace (crates : Crates) (p : Profile) (discovery : TaskDiscovery) :
    List Received → List Visit → List EngineEvent → Prop
  | nil : RunTrace crates p discovery [] [] []
  | advance {seq : U32} {query : TaskQuery} {events : List Received}
      {visits visits' : List Visit} {t t' : List EngineEvent}
      (hadvance : AdvanceTrace crates p discovery seq query visits t)
      (hrest : RunTrace crates p discovery events visits' t') :
      RunTrace crates p discovery (.advance seq query :: events) (visits ++ visits') (t ++ t')
  | lagged {skipped : U64} {events : List Received} {visits : List Visit}
      {t : List EngineEvent} (hrest : RunTrace crates p discovery events visits t) :
      RunTrace crates p discovery (.lagged skipped :: events) visits
        (⟨.log (.channelLagged skipped), ()⟩ :: t)

theorem returns_dispatchTasks_iff {tasks : List RemoteTask} :
    (discovery.dispatchTasks crates p currentLedger tasks).Returns t () ↔
      ∃ visits, TasksTrace crates p discovery currentLedger tasks visits t := by
  induction tasks generalizing t with
  | nil =>
      constructor
      · intro h
        obtain ⟨rfl, -⟩ := Program.returns_done_iff.1 h
        exact ⟨[], .nil⟩
      · rintro ⟨visits, _ | _⟩
        exact .done ()
  | cons task rest ih =>
      unfold TaskDiscovery.dispatchTasks
      rw [Program.returns_bind_iff]
      constructor
      · rintro ⟨t₁, t₂, _, rfl, hvisit, hrest⟩
        obtain ⟨visits, hvisits⟩ := ih.1 hrest
        exact ⟨_, .cons hvisit hvisits⟩
      · rintro ⟨visits, h⟩
        cases h with
        | cons hvisit hrest => exact ⟨_, _, (), rfl, hvisit, ih.2 ⟨_, hrest⟩⟩

theorem returns_onLedgerAdvance_iff {query : TaskQuery} :
    (discovery.onLedgerAdvance crates p query currentLedger).Returns t () ↔
      ∃ visits, AdvanceTrace crates p discovery currentLedger query visits t := by
  cases query with
  | tasks tasks =>
      unfold TaskDiscovery.onLedgerAdvance
      rw [Program.returns_bind_iff]
      constructor
      · rintro ⟨t₁, t₂, _, rfl, hlog, htasks⟩
        obtain ⟨visits, hvisits⟩ := returns_dispatchTasks_iff.1 htasks
        exact ⟨visits, .tasks hlog hvisits⟩
      · rintro ⟨visits, h⟩
        cases h with
        | tasks hlog hvisits =>
            exact ⟨_, _, (), rfl, hlog, returns_dispatchTasks_iff.2 ⟨_, hvisits⟩⟩
  | error e =>
      constructor
      · intro h
        cases returns_log_iff.1 h
        exact ⟨[], .error⟩
      · rintro ⟨visits, h⟩
        cases h
        exact returns_log_iff.2 rfl
  | elapsed =>
      constructor
      · intro h
        cases returns_log_iff.1 h
        exact ⟨[], .elapsed⟩
      · rintro ⟨visits, h⟩
        cases h
        exact returns_log_iff.2 rfl

/-- Every complete trace of the loop divides into visits. -/
theorem returns_run_iff {events : List Received} :
    (discovery.run crates p events).Returns t () ↔
      ∃ visits, RunTrace crates p discovery events visits t := by
  induction events generalizing t with
  | nil =>
      constructor
      · intro h
        obtain ⟨rfl, -⟩ := Program.returns_done_iff.1 h
        exact ⟨[], .nil⟩
      · rintro ⟨visits, _ | _⟩
        exact .done ()
  | cons event events ih =>
      cases event with
      | lagged skipped =>
          unfold TaskDiscovery.run
          rw [returns_log_bind_iff]
          constructor
          · rintro ⟨t', rfl, hrest⟩
            obtain ⟨visits, hvisits⟩ := ih.1 hrest
            exact ⟨visits, .lagged hvisits⟩
          · rintro ⟨visits, h⟩
            cases h with
            | lagged hrest => exact ⟨_, rfl, ih.2 ⟨_, hrest⟩⟩
      | advance seq query =>
          unfold TaskDiscovery.run
          rw [Program.returns_bind_iff]
          constructor
          · rintro ⟨t₁, t₂, _, rfl, hadvance, hrest⟩
            obtain ⟨visits, hvisits⟩ := returns_onLedgerAdvance_iff.1 hadvance
            obtain ⟨visits', hvisits'⟩ := ih.1 hrest
            exact ⟨_, .advance hvisits hvisits'⟩
          · rintro ⟨visits, h⟩
            cases h with
            | advance hadvance hrest =>
                exact ⟨_, _, (), rfl, returns_onLedgerAdvance_iff.2 ⟨_, hadvance⟩,
                  ih.2 ⟨_, hrest⟩⟩

/-! ## The in-flight set -/

theorem answers_work_iff {op : EngineOp} {r : op.Reply} (hop : op.IsWork) :
    InFlightSet.Answers op s r s' ↔ s' = s := by
  cases op with
  | containsInFlight => exact hop.elim
  | insertInFlight => exact hop.elim
  | removeInFlight => exact hop.elim
  | _ => exact Iff.rfl

theorem eq_of_answers_check {op : EngineOp} {r : op.Reply} (hop : op.IsCheck taskId)
    (h : InFlightSet.Answers op s r s') : s' = s := by
  cases op with
  | containsInFlight => exact h.2
  | log => exact h
  | abort => exact h
  | _ => exact hop.elim

theorem Releases.answered_eq {x : EngineM Unit} (hx : Releases taskId x)
    (ht : x.Returns t ()) (hs : Answered InFlightSet.Answers t s s') : s' = s.erase taskId := by
  induction hx generalizing t s with
  | remove hlast =>
      obtain ⟨r, t', rfl, hdone⟩ := Program.returns_perform_iff.1 ht
      -- the removal is the last operation, so nothing follows it
      rw [hlast] at hdone
      obtain ⟨rfl, -⟩ := Program.returns_done_iff.1 hdone
      obtain ⟨s₁, hremove, hnil⟩ := answered_cons_iff.1 hs
      rw [answered_nil_iff.1 hnil]
      exact hremove
  | perform hop _ ih =>
      obtain ⟨r, t', rfl, hnext⟩ := Program.returns_perform_iff.1 ht
      obtain ⟨s₁, hwork, hrest⟩ := answered_cons_iff.1 hs
      obtain rfl := (answers_work_iff hop).1 hwork
      exact ih r hnext hrest

/-- A visit leaves the in-flight set as it has found it: what it inserts it removes. -/
theorem Enters.answered_eq {x : EngineM Unit} (hx : Enters taskId x) (ht : x.Returns t ())
    (hs : Answered InFlightSet.Answers t s s') : s' = s := by
  induction hx generalizing t s with
  | done =>
      obtain ⟨rfl, -⟩ := Program.returns_done_iff.1 ht
      exact answered_nil_iff.1 hs
  | insert hrefused hwon =>
      obtain ⟨r, t', rfl, hnext⟩ := Program.returns_perform_iff.1 ht
      obtain ⟨s₁, hinsert, hrest⟩ := answered_cons_iff.1 hs
      obtain ⟨hr, rfl⟩ := Prod.mk.inj hinsert
      cases r with
      | false =>
          rw [hrefused] at hnext
          obtain ⟨rfl, -⟩ := Program.returns_done_iff.1 hnext
          -- refused: the identifier was there already, so inserting it changes nothing
          rw [answered_nil_iff.1 hrest]
          exact Finset.insert_eq_of_mem (not_not.1 (of_decide_eq_false hr.symm))
      | true =>
          -- won: the removal at the end undoes the insertion
          rw [hwon.answered_eq hnext hrest]
          exact Finset.erase_insert (of_decide_eq_true hr.symm)
  | perform hop _ ih =>
      obtain ⟨r, t', rfl, hnext⟩ := Program.returns_perform_iff.1 ht
      obtain ⟨s₁, hcheck, hrest⟩ := answered_cons_iff.1 hs
      have hsame := eq_of_answers_check hop hcheck
      subst hsame
      exact ih r hnext hrest

/-- Work leaves the in-flight set as it is. -/
theorem answered_work_iff (ht : ∀ e ∈ t, e.op.IsWork) :
    Answered InFlightSet.Answers t s s' ↔ s' = s := by
  induction t generalizing s with
  | nil => exact answered_nil_iff
  | cons e t ih =>
      rw [answered_cons_iff]
      simp only [answers_work_iff (ht e (List.mem_cons_self ..)), exists_eq_left]
      exact ih fun e' he' => ht e' (List.mem_cons_of_mem _ he')

theorem all_logDiscovered (tasks : List RemoteTask) :
    (TaskDiscovery.logDiscovered currentLedger tasks).All EngineOp.IsWork := by
  unfold TaskDiscovery.logDiscovered
  split
  · trivial
  · exact all_log coversWork_isWork _

/-- The visit is a complete run for its task, before and after which the in-flight set is `s`. -/
structure IsVisit (crates : Crates) (p : Profile) (discovery : TaskDiscovery) (s : InFlightSet)
    (v : Visit) : Prop where
  returns : (discovery.classifyAndDispatch crates p v.task v.ledger).Returns v.trace ()
  answered : Answered InFlightSet.Answers v.trace s s

theorem TasksTrace.isVisit {tasks : List RemoteTask} {visits : List Visit}
    (h : TasksTrace crates p discovery currentLedger tasks visits t)
    (hs : Answered InFlightSet.Answers t s s') :
    s' = s ∧ ∀ v ∈ visits, IsVisit crates p discovery s v := by
  induction h with
  | nil => exact ⟨answered_nil_iff.1 hs, fun v hv => absurd hv List.not_mem_nil⟩
  | cons hvisit _ ih =>
      obtain ⟨s₁, hfirst, hrest⟩ := answered_append_iff.1 hs
      -- the first visit leaves the set as it was, so the others start from it too
      obtain rfl := (enters_classifyAndDispatch rfl).answered_eq hvisit hfirst
      obtain ⟨hend, hvisits⟩ := ih hrest
      refine ⟨hend, fun v hv => ?_⟩
      rcases List.mem_cons.1 hv with rfl | hv
      · exact ⟨hvisit, hfirst⟩
      · exact hvisits v hv

theorem AdvanceTrace.isVisit {query : TaskQuery} {visits : List Visit}
    (h : AdvanceTrace crates p discovery currentLedger query visits t)
    (hs : Answered InFlightSet.Answers t s s') :
    s' = s ∧ ∀ v ∈ visits, IsVisit crates p discovery s v := by
  cases h with
  | tasks hlog hvisits =>
      obtain ⟨s₁, hfirst, hrest⟩ := answered_append_iff.1 hs
      obtain rfl := (answered_work_iff ((all_logDiscovered _).of_returns hlog)).1 hfirst
      exact hvisits.isVisit hrest
  | error =>
      have hend := (answered_work_iff (by simp [EngineOp.IsWork])).1 hs
      exact ⟨hend, fun v hv => absurd hv List.not_mem_nil⟩
  | elapsed =>
      have hend := (answered_work_iff (by simp [EngineOp.IsWork])).1 hs
      exact ⟨hend, fun v hv => absurd hv List.not_mem_nil⟩

/-- By induction on the events: each visit finds the in-flight set as the loop has found it. -/
theorem RunTrace.isVisit {events : List Received} {visits : List Visit}
    (h : RunTrace crates p discovery events visits t)
    (hs : Answered InFlightSet.Answers t s s') :
    ∀ v ∈ visits, IsVisit crates p discovery s v := by
  induction h with
  | nil => exact fun v hv => absurd hv List.not_mem_nil
  | advance hadvance _ ih =>
      obtain ⟨s₁, hfirst, hrest⟩ := answered_append_iff.1 hs
      obtain ⟨rfl, hvisits⟩ := hadvance.isVisit hfirst
      intro v hv
      rcases List.mem_append.1 hv with hv | hv
      · exact hvisits v hv
      · exact ih hrest v hv
  | lagged _ ih =>
      obtain ⟨s₁, hlog, hrest⟩ := answered_cons_iff.1 hs
      obtain rfl : s₁ = s := hlog
      exact ih hrest

/-! ## What a visit submits -/

/-- The attempts in the role are the only submissions of the trace. -/
def SubmitsAs (crates : Crates) (pipeline : ExecutionPipeline) (task : RemoteTask)
    (role : ExecutionRole) (t : List EngineEvent) : Prop :=
  ∃ pre t' post, t = pre ++ (t' ++ post) ∧ submissions pre = [] ∧ submissions post = [] ∧
    AttemptsTrace crates pipeline task role 0 pipeline.retryBackoffInitial
      pipeline.maxRetries.val.toNat t'

theorem SubmitsAs.cons (h : SubmitsAs crates pipeline task role t) {e : EngineEvent}
    (he : submissionReply e = none) : SubmitsAs crates pipeline task role (e :: t) := by
  obtain ⟨pre, t', post, rfl, hpre, hpost, hattempts⟩ := h
  exact ⟨e :: pre, t', post, rfl, (List.filterMap_cons_none he).trans hpre, hpost, hattempts⟩

theorem submitsAs_of_dispatch (hs : parseTaskId crates task.taskIdHex ∉ s)
    (ht : (pipeline.dispatch crates task role).Returns t ())
    (hanswered : Answered InFlightSet.Answers t s s') :
    SubmitsAs crates pipeline task role t := by
  unfold ExecutionPipeline.dispatch at ht
  rw [insertInFlight_bind] at ht
  obtain ⟨inserted, t', rfl, hrest⟩ := Program.returns_perform_iff.1 ht
  obtain ⟨s₁, hinsert, -⟩ := answered_cons_iff.1 hanswered
  -- the set answers the insertion: it is new
  have hinserted : inserted = decide (parseTaskId crates task.taskIdHex ∉ s) :=
    congrArg Prod.fst hinsert
  rw [hinserted, decide_eq_true hs] at hrest
  obtain ⟨t₁, t₂, _, rfl, hattempts, hremove⟩ := Program.returns_bind_iff.1 hrest
  cases Program.returns_request_iff.1 hremove
  exact ⟨[_], t₁, [_], rfl, rfl, rfl, attemptsTrace_of_returns hattempts⟩

/-- A test of the set is answered by what is in it. -/
theorem returns_contains {f : Bool → EngineM Unit} (hs : taskId ∉ s)
    (ht : (containsInFlight taskId >>= f).Returns t ())
    (hanswered : Answered InFlightSet.Answers t s s') :
    ∃ t', t = ⟨.containsInFlight taskId, false⟩ :: t' ∧ (f false).Returns t' () ∧
      Answered InFlightSet.Answers t' s s' := by
  rw [containsInFlight_bind] at ht
  obtain ⟨found, t', rfl, hrest⟩ := Program.returns_perform_iff.1 ht
  obtain ⟨s₁, ⟨hfound, rfl⟩, hanswered'⟩ := answered_cons_iff.1 hanswered
  have hfalse : found = false := hfound.trans (decide_eq_false hs)
  subst hfalse
  exact ⟨t', rfl, hrest, hanswered'⟩

theorem add_fifty_of_le {next : U32} (hfits : next.val + 50 ≤ 4294967295) :
    ∃ graceEnd, p.add next 50 = some graceEnd ∧ graceEnd.val = next.val + 50 := by
  have hrange : IntTy.u32.InRange (next.val + (50 : U32).val) := by
    have hnext := next.bounds
    have hfifty : (50 : U32).val = 50 := rfl
    rw [IntTy.inRange_u32, hfifty]
    omega
  exact ⟨⟨_, hrange⟩, p.fit_of_inRange hrange, rfl⟩

/-- Within the grace period the classification hands the task to the grace monitor. -/
theorem classifyAndDispatch_of_inGrace
    (hopen : task.nextAllowedExecution.val < currentLedger.val)
    (hend : currentLedger.val ≤ task.nextAllowedExecution.val + 50)
    (hfits : task.nextAllowedExecution.val + 50 ≤ 4294967295) :
    discovery.classifyAndDispatch crates p task currentLedger =
      (containsInFlight (parseTaskId crates task.taskIdHex) >>= fun inFlight =>
        if inFlight then pure ()
        else discovery.graceMonitor.evaluate crates task currentLedger) := by
  obtain ⟨graceEnd, hadd, hval⟩ := add_fifty_of_le (p := p) hfits
  have hne : currentLedger ≠ task.nextAllowedExecution := by
    rintro rfl
    exact lt_irrefl _ hopen
  have hgrace : task.nextAllowedExecution < currentLedger ∧ currentLedger ≤ graceEnd :=
    ⟨MachineInt.lt_iff.2 hopen, MachineInt.le_iff.2 (hval ▸ hend)⟩
  unfold TaskDiscovery.classifyAndDispatch
  simp only [hne, false_and, if_false, withinGrace_of_some hadd, Program.done_bind, hgrace,
    and_self, decide_true, if_true]
  rfl

/-- Within the grace period another keeper than the designated one dispatches the task, unless it
is in flight. -/
theorem evaluate_of_inGrace {monitor : GraceMonitor}
    (hopen : task.nextAllowedExecution.val < currentLedger.val)
    (hend : currentLedger.val ≤ task.nextAllowedExecution.val + 50)
    (hkeeper : task.designatedKeeper ≠ monitor.keeperAddress) :
    monitor.evaluate crates task currentLedger =
      (containsInFlight (parseTaskId crates task.taskIdHex) >>= fun inFlight =>
        if inFlight then pure ()
        else do
          log (.dispatchingAsSecondary task.taskIdHex
            (currentLedger.saturatingSub task.nextAllowedExecution) monitor.keeperAddress)
          monitor.pipeline.dispatch crates task .secondary) := by
  unfold GraceMonitor.evaluate
  simp only [not_fifty_lt_elapsed hopen hend, if_false]
  exact if_neg (Ne.symm hkeeper)

theorem evaluate_of_designated {monitor : GraceMonitor}
    (hopen : task.nextAllowedExecution.val < currentLedger.val)
    (hend : currentLedger.val ≤ task.nextAllowedExecution.val + 50)
    (hkeeper : task.designatedKeeper = monitor.keeperAddress) :
    monitor.evaluate crates task currentLedger = .done () := by
  unfold GraceMonitor.evaluate
  simp only [not_fifty_lt_elapsed hopen hend, if_false]
  exact if_pos hkeeper.symm

/-- A visit within the grace period submits as secondary, unless this node is the designated
keeper. -/
theorem submitsAs_of_inGrace (hs : parseTaskId crates task.taskIdHex ∉ s)
    (hopen : task.nextAllowedExecution.val < currentLedger.val)
    (hend : currentLedger.val ≤ task.nextAllowedExecution.val + 50)
    (hfits : task.nextAllowedExecution.val + 50 ≤ 4294967295)
    (ht : (discovery.classifyAndDispatch crates p task currentLedger).Returns t ())
    (hanswered : Answered InFlightSet.Answers t s s') :
    (task.designatedKeeper = discovery.graceMonitor.keeperAddress ∧ submissions t = []) ∨
      (task.designatedKeeper ≠ discovery.graceMonitor.keeperAddress ∧
        SubmitsAs crates discovery.graceMonitor.pipeline task .secondary t) := by
  rw [classifyAndDispatch_of_inGrace hopen hend hfits] at ht
  obtain ⟨t₁, rfl, hevaluate, hanswered₁⟩ := returns_contains hs ht hanswered
  -- what is left is the evaluation by the grace monitor
  simp only [Bool.false_eq_true, if_false] at hevaluate
  by_cases hkeeper : task.designatedKeeper = discovery.graceMonitor.keeperAddress
  · rw [evaluate_of_designated hopen hend hkeeper] at hevaluate
    obtain ⟨rfl, -⟩ := Program.returns_done_iff.1 hevaluate
    exact Or.inl ⟨hkeeper, rfl⟩
  · -- the monitor tests the set once more, logs and dispatches
    rw [evaluate_of_inGrace hopen hend hkeeper] at hevaluate
    obtain ⟨t₂, rfl, hlog, hanswered₂⟩ := returns_contains hs hevaluate hanswered₁
    obtain ⟨t₃, rfl, hdispatch⟩ := returns_log_bind_iff.1 hlog
    obtain ⟨s₃, hsame, hanswered₃⟩ := answered_cons_iff.1 hanswered₂
    obtain rfl : s₃ = s := hsame
    have hsubmits := submitsAs_of_dispatch hs hdispatch hanswered₃
    exact Or.inr ⟨hkeeper, ((hsubmits.cons rfl).cons rfl).cons rfl⟩

/-- Where the end of the grace period overflows, a visit within it never submits as secondary: it
aborts, or takes the grace period for over. -/
theorem submitsAs_of_overflow (hs : parseTaskId crates task.taskIdHex ∉ s)
    (hopen : task.nextAllowedExecution.val < currentLedger.val)
    (hoverflow : 4294967295 < task.nextAllowedExecution.val + 50)
    (ht : (discovery.classifyAndDispatch crates p task currentLedger).Returns t ())
    (hanswered : Answered InFlightSet.Answers t s s') :
    SubmitsAs crates discovery.pipeline task .postGrace t := by
  unfold TaskDiscovery.classifyAndDispatch at ht
  obtain ⟨t', rfl, hrest, hanswered'⟩ := returns_contains hs ht hanswered
  have hne : currentLedger ≠ task.nextAllowedExecution := by
    rintro rfl
    exact lt_irrefl _ hopen
  simp only [Bool.false_eq_true, if_false, hne, false_and] at hrest
  -- in a debug build the addition aborts, in a release build it wraps
  cases hadd : p.add task.nextAllowedExecution 50 with
  | none =>
      unfold withinGrace at hrest
      rw [if_pos (MachineInt.lt_iff.2 hopen), hadd] at hrest
      -- nothing comes back from an abort
      obtain ⟨r, -⟩ := Program.returns_perform_iff.1 hrest
      exact r.elim
  | some graceEnd =>
      have hwrapped : graceEnd.val < task.nextAllowedExecution.val := by
        have hgraceEnd := U32.bounds graceEnd
        rcases val_of_graceEnd hadd with h | ⟨-, h⟩ <;> omega
      -- the wrapped end lies before the window: the ledger is not within it but after it
      have hgrace : ¬ (task.nextAllowedExecution < currentLedger ∧ currentLedger ≤ graceEnd) :=
        fun h => absurd (h.1.trans_le h.2) (not_lt.2 hwrapped.le)
      have hpost : graceEnd < currentLedger := hwrapped.trans hopen
      rw [withinGrace_of_some hadd, Program.done_bind, decide_eq_false hgrace] at hrest
      simp only [Bool.false_eq_true, if_false, hadd] at hrest
      have hmissed : (GraceMonitor.logMissed task currentLedger >>= fun _ =>
          discovery.pipeline.dispatch crates task .postGrace).Returns t' () := by
        have hbranch : (if graceEnd < currentLedger then _ else _ : EngineM Unit).Returns t' () :=
          hrest
        rwa [if_pos hpost] at hbranch
      obtain ⟨t₂, rfl, hdispatch⟩ := returns_log_bind_iff.1 hmissed
      obtain ⟨s₂, hsame, hanswered₂⟩ := answered_cons_iff.1 hanswered'
      obtain rfl : s₂ = s := hsame
      exact ((submitsAs_of_dispatch hs hdispatch hanswered₂).cons rfl).cons rfl

/-- The trace of a visit as secondary, with that of its attempts. -/
def secondaryTrace (crates : Crates) (pipeline : ExecutionPipeline) (task : RemoteTask)
    (currentLedger : U32) (t : List EngineEvent) : List EngineEvent :=
  let taskId := parseTaskId crates task.taskIdHex
  let ledgersElapsed := currentLedger.saturatingSub task.nextAllowedExecution
  ⟨.containsInFlight taskId, false⟩ :: ⟨.containsInFlight taskId, false⟩ ::
    ⟨.log (.dispatchingAsSecondary task.taskIdHex ledgersElapsed pipeline.keeperAddress), ()⟩ ::
    ⟨.insertInFlight taskId, true⟩ :: (t ++ [⟨.removeInFlight taskId, ()⟩])

/-- Whatever becomes of the attempts, there is a visit to which they belong. -/
theorem returns_secondaryTrace
    (hopen : task.nextAllowedExecution.val < currentLedger.val)
    (hend : currentLedger.val ≤ task.nextAllowedExecution.val + 50)
    (hfits : task.nextAllowedExecution.val + 50 ≤ 4294967295)
    (hkeeper : task.designatedKeeper ≠ pipeline.keeperAddress)
    (h : AttemptsTrace crates pipeline task .secondary 0 pipeline.retryBackoffInitial
      pipeline.maxRetries.val.toNat t) :
    ((TaskDiscovery.wired pipeline).classifyAndDispatch crates p task currentLedger).Returns
      (secondaryTrace crates pipeline task currentLedger t) () := by
  -- the dispatch: insertion, attempts, removal
  have hdispatch : (pipeline.dispatch crates task .secondary).Returns
      (⟨.insertInFlight (parseTaskId crates task.taskIdHex), true⟩ ::
        (t ++ [⟨.removeInFlight (parseTaskId crates task.taskIdHex), ()⟩])) () := by
    unfold ExecutionPipeline.dispatch
    rw [insertInFlight_bind]
    refine Program.returns_perform_iff.2 ⟨true, _, rfl, ?_⟩
    exact Program.returns_bind_iff.2 ⟨t, _, (), rfl, h.returns, Program.returns_request_iff.2 rfl⟩
  rw [classifyAndDispatch_of_inGrace hopen hend hfits, containsInFlight_bind]
  refine Program.returns_perform_iff.2 ⟨false, _, rfl, ?_⟩
  show ((TaskDiscovery.wired pipeline).graceMonitor.evaluate crates task currentLedger).Returns _ ()
  have hother : task.designatedKeeper ≠
      (TaskDiscovery.wired pipeline).graceMonitor.keeperAddress := hkeeper
  rw [evaluate_of_inGrace hopen hend hother, containsInFlight_bind]
  refine Program.returns_perform_iff.2 ⟨false, _, rfl, ?_⟩
  exact returns_log_bind_iff.2 ⟨_, rfl, hdispatch⟩

theorem answered_secondaryTrace (hs : parseTaskId crates task.taskIdHex ∉ s)
    (h : AttemptsTrace crates pipeline task role 0 pipeline.retryBackoffInitial
      pipeline.maxRetries.val.toNat t) :
    Answered InFlightSet.Answers (secondaryTrace crates pipeline task currentLedger t) s s := by
  have hwork : ∀ e ∈ t, e.op.IsWork := all_attemptsFrom_isWork.of_returns h.returns
  have hinsert : (true, insert (parseTaskId crates task.taskIdHex) s) =
      s.insert (parseTaskId crates task.taskIdHex) :=
    Prod.ext (decide_eq_true hs).symm rfl
  -- the two tests find nothing, the log entry changes nothing, and the insertion is new
  refine .cons ⟨(decide_eq_false hs).symm, rfl⟩ (.cons ⟨(decide_eq_false hs).symm, rfl⟩
    (.cons (rfl : s = s) (.cons hinsert ?_)))
  refine answered_append_iff.2 ⟨_, (answered_work_iff hwork).2 rfl, .cons ?_ (.nil s)⟩
  exact (Finset.erase_insert hs).symm

theorem submissions_append (t₁ t₂ : List EngineEvent) :
    submissions (t₁ ++ t₂) = submissions t₁ ++ submissions t₂ := List.filterMap_append

theorem SubmitsAs.exists_attempts (h : SubmitsAs crates pipeline task role t) :
    ∃ t', submissions t = submissions t' ∧ AttemptsTrace crates pipeline task role 0
      pipeline.retryBackoffInitial pipeline.maxRetries.val.toNat t' := by
  obtain ⟨pre, t', post, rfl, hpre, hpost, hattempts⟩ := h
  refine ⟨t', ?_, hattempts⟩
  rw [submissions_append, submissions_append, hpre, hpost, List.nil_append, List.append_nil]

theorem SubmitsAs.length_pos (h : SubmitsAs crates pipeline task role t) :
    1 ≤ (submissions t).length := by
  obtain ⟨t', hsubmissions, hattempts⟩ := h.exists_attempts
  rw [hsubmissions]
  exact hattempts.length_submissions.1

theorem SubmitsAs.length_le (h : SubmitsAs crates pipeline task role t) :
    (submissions t).length ≤ pipeline.maxRetries.val.toNat + 1 := by
  obtain ⟨t', hsubmissions, hattempts⟩ := h.exists_attempts
  rw [hsubmissions]
  exact hattempts.length_submissions.2

theorem SubmitsAs.transient_of_dropLast (h : SubmitsAs crates pipeline task role t) :
    ∀ reply ∈ (submissions t).dropLast, Transient reply := by
  obtain ⟨t', hsubmissions, hattempts⟩ := h.exists_attempts
  rw [hsubmissions]
  exact hattempts.transient

/-- Only a transient failure is followed by another submission. -/
theorem SubmitsAs.transient (h : SubmitsAs crates pipeline task role t)
    {pre post : List EngineEvent} {envelope : String} {reply : HttpReply SendTxResult}
    (ht : t = pre ++ ⟨.postSendTransaction envelope, reply⟩ :: post)
    (hpost : submissions post ≠ []) : Transient reply := by
  apply h.transient_of_dropLast
  rw [ht, submissions_append, submissions_send]
  exact mem_dropLast_of_ne_nil hpost

theorem AttemptsTrace.envelope {attempt left : Nat} {backoff : Duration}
    (h : AttemptsTrace crates pipeline task role attempt backoff left t) {envelope : String}
    {reply : HttpReply SendTxResult} (hmem : ⟨.postSendTransaction envelope, reply⟩ ∈ t) :
    envelope = pipeline.buildSignedTransaction crates task role := by
  induction h with
  | accepted _ hawait =>
      rcases List.mem_cons.1 hmem with heq | hmem
      · cases heq
        rfl
      · exact absurd hmem (send_not_mem hawait.submissions_eq_nil)
  | dropped =>
      rcases List.mem_cons.1 hmem with heq | hmem
      · cases heq
        rfl
      · exact absurd hmem (send_not_mem rfl)
  | exhausted =>
      rcases List.mem_cons.1 hmem with heq | hmem
      · cases heq
        rfl
      · exact absurd hmem (send_not_mem rfl)
  | retried _ _ _ ih =>
      rcases List.mem_cons.1 hmem with heq | hmem
      · cases heq
        rfl
      rcases List.mem_cons.1 hmem with heq | hmem
      · cases heq
      rcases List.mem_cons.1 hmem with heq | hmem
      · cases heq
      · exact ih hmem

/-- Every submission is the envelope of the role. -/
theorem SubmitsAs.envelope (h : SubmitsAs crates pipeline task role t) {envelope : String}
    {reply : HttpReply SendTxResult} (hmem : ⟨.postSendTransaction envelope, reply⟩ ∈ t) :
    envelope = pipeline.buildSignedTransaction crates task role := by
  obtain ⟨pre, t', post, rfl, hpre, hpost, hattempts⟩ := h
  rcases List.mem_append.1 hmem with hmem | hmem
  · exact absurd hmem (send_not_mem hpre)
  rcases List.mem_append.1 hmem with hmem | hmem
  · exact hattempts.envelope hmem
  · exact absurd hmem (send_not_mem hpost)

end ChronosKeeper.Engine
