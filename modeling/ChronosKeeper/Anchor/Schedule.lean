import ChronosKeeper.Anchor.Records

/-!
# Schedules over runs

A task can be executed again only after its interval has passed since the last execution, whoever
executes it and in whichever region (`replay_protection`). The argument has three parts: the
identifiers in use come from counters below the task counter, so that no provisioning call
overwrites a stored task (`freshIds_step`); a step leaves a task alone unless it is a successful
execution of it, which then advances the schedule (`task_step`); and the spacing of events past a
gate is a general fact about runs.

Addition aborts on overflow throughout, and the hash is injective on seeds.
-/

set_option autoImplicit false

namespace ChronosKeeper.Anchor

open ChronosKeeper.Foundations

variable {Address TokenState : Type} [DecidableEq Address]

/-- The action is a successful execution of the task. -/
def isExecution (host : Host Address TokenState) (p : Profile) (id : TaskId)
    (env : Env Address TokenState) : Action Address TokenState → Bool
  | .call inv (.executeDripSplit taskId caller) =>
      decide (taskId = id ∧ Succeeds host p inv (.executeDripSplit taskId caller) env)
  | _ => false

/-- Every identifier in use comes from a counter below the task counter. -/
def FreshIds (host : Host Address TokenState) (env : Env Address TokenState) : Prop :=
  ∀ id t, env.tasks.lookup id = some t →
    ∃ c l, id = host.sha256 (taskSeed c l) ∧ c.val < (env.taskCounter.getD 0).val

variable {host : Host Address TokenState} {p : Profile} {env env' : Env Address TokenState}

/-! ## Identifiers -/

/-- The identifier of a new task is not in use. -/
theorem lookup_eq_none_of_provisioning (hsha : Function.Injective host.sha256)
    (hfresh : FreshIds host env) {inv : Invocation Address TokenState} {nextCounter : U32}
    {task : ExecutionTask Address} (htask : IsProvisioning host p inv env nextCounter task) :
    env.tasks.lookup task.taskId = none := by
  cases hlookup : env.tasks.lookup task.taskId with
  | none => rfl
  | some t =>
      exfalso
      obtain ⟨c, l, hid, hlt⟩ := hfresh _ t hlookup
      rw [htask.taskId] at hid
      obtain ⟨hc, -⟩ := taskSeed_injective (hsha hid)
      rw [hc] at hlt
      exact lt_irrefl _ hlt

omit [DecidableEq Address] in
theorem FreshIds.congr (h : FreshIds host env) (htasks : env'.tasks = env.tasks)
    (hcounter : env'.taskCounter = env.taskCounter) : FreshIds host env' := by
  intro id t ht
  rw [hcounter]
  exact h id t (htasks ▸ ht)

theorem freshIds_step (h : WellFormed env) (hfresh : FreshIds host env)
    (action : Action Address TokenState) : FreshIds host (step host .debug env action) := by
  have heffect := step_effect host .debug env action
  generalize step host .debug env action = env' at heffect
  cases heffect with
  | provisioned inv nextCounter task _ htask =>
      -- The new identifier comes from the old counter, which is below the new one.
      have hcounter : nextCounter.val = (env.taskCounter.getD 0).val + 1 :=
        Profile.val_of_fit_debug htask.counter
      intro id t ht
      show ∃ c l, id = host.sha256 (taskSeed c l) ∧ c.val < nextCounter.val
      rw [lookup_tasks_provisioned] at ht
      split at ht
      · rename_i hid
        exact ⟨_, _, hid.trans htask.taskId, by omega⟩
      · obtain ⟨c, l, hseed, hlt⟩ := hfresh id t ht
        exact ⟨c, l, hseed, by omega⟩
  | executed inv taskId caller task env' _ htask _ hexec =>
      -- An execution writes only under the identifier of a stored task.
      obtain ⟨next, -, hlookup⟩ := hexec.lookup_tasks h htask
      obtain ⟨-, -, -, -, hcounter⟩ := hexec.instance_eq
      intro id t ht
      rw [hcounter]
      rw [hlookup] at ht
      split at ht
      · rename_i hid
        exact hfresh id task (hid ▸ htask)
      · exact hfresh id t ht
  | idle => exact hfresh
  | initialized => exact hfresh.congr rfl rfl
  | registered => exact hfresh.congr rfl rfl
  | closed => exact hfresh.congr rfl rfl
  | transferred => exact hfresh.congr rfl rfl

/-- The invariant that the results of this module are proved from. -/
structure Scheduled (host : Host Address TokenState) (env : Env Address TokenState) : Prop where
  wellFormed : WellFormed env
  freshIds : FreshIds host env

theorem scheduled_deployed (tokens : TokenState) (ledgerSequence : U32) :
    Scheduled host (deployed tokens ledgerSequence) where
  wellFormed := wellFormed_deployed tokens ledgerSequence
  freshIds _ _ h := by cases h

theorem Scheduled.step (h : Scheduled host env) (action : Action Address TokenState) :
    Scheduled host (step host .debug env action) where
  wellFormed := h.wellFormed.step action
  freshIds := freshIds_step h.wellFormed h.freshIds action

theorem scheduled_run (tokens : TokenState) (ledgerSequence : U32)
    (actions : List (Action Address TokenState)) :
    Scheduled host (run (step host .debug) (deployed tokens ledgerSequence) actions) :=
  run_induction (scheduled_deployed tokens ledgerSequence) (fun _ a h => h.step a) actions

/-- Every state a run from a deployment passes through satisfies the invariant. -/
theorem scheduled_of_mem_trace {tokens : TokenState} {ledgerSequence : U32}
    {actions : List (Action Address TokenState)}
    {r : Env Address TokenState × Action Address TokenState}
    (hr : r ∈ trace (step host .debug) (deployed tokens ledgerSequence) actions) :
    Scheduled host r.1 := by
  obtain ⟨pre, post, -, hpre⟩ := mem_trace_iff.1 hr
  rw [hpre]
  exact scheduled_run tokens ledgerSequence pre

/-! ## One step -/

theorem isExecution_iff {id : TaskId} {action : Action Address TokenState} :
    isExecution host p id env action = true ↔
      ∃ inv caller, action = .call inv (.executeDripSplit id caller) ∧
        Succeeds host p inv (.executeDripSplit id caller) env := by
  constructor
  · intro h
    unfold isExecution at h
    split at h
    · rename_i inv taskId caller
      obtain ⟨rfl, hok⟩ := of_decide_eq_true h
      exact ⟨inv, caller, rfl, hok⟩
    · cases h
  · rintro ⟨inv, caller, rfl, hok⟩
    exact decide_eq_true ⟨rfl, hok⟩

/-- A successful execution advances the schedule of its task from the current ledger. -/
theorem task_of_execution (h : WellFormed env) {id : TaskId} {action : Action Address TokenState}
    (hexec : isExecution host .debug id env action = true) :
    ∃ t next, env.tasks.lookup id = some t ∧
      t.nextAllowedExecution.val ≤ env.ledgerSequence.val ∧
      next.val = env.ledgerSequence.val + t.executionIntervalLedgers.val ∧
      (step host .debug env action).tasks.lookup id =
        some { t with nextAllowedExecution := next } := by
  obtain ⟨inv, caller, rfl, hok⟩ := isExecution_iff.1 hexec
  obtain ⟨t, ht, -, hexecutes⟩ := executes_of_succeeds hok
  obtain ⟨next, hnext, hlookup⟩ := hexecutes.lookup_tasks h ht
  refine ⟨t, next, ht, hexecutes.next_le_ledger, Profile.val_of_fit_debug hnext, ?_⟩
  rw [hlookup, if_pos rfl]

/-- A step that does not execute a stored task leaves its record alone. -/
theorem task_of_not_execution (hsha : Function.Injective host.sha256) (h : Scheduled host env)
    {id : TaskId} {t : ExecutionTask Address} (ht : env.tasks.lookup id = some t)
    {action : Action Address TokenState}
    (hnot : isExecution host .debug id env action = false) :
    (step host .debug env action).tasks.lookup id = some t := by
  have heffect := step_effect host .debug env action
  generalize step host .debug env action = env' at heffect
  cases heffect with
  | provisioned inv nextCounter task _ htask =>
      -- A new task never takes the identifier of a stored one.
      have hnone := lookup_eq_none_of_provisioning hsha h.freshIds htask
      have hne : id ≠ task.taskId := by
        intro heq
        rw [← heq, ht] at hnone
        cases hnone
      rw [lookup_tasks_provisioned, if_neg hne]
      exact ht
  | executed inv taskId caller task env' hok htask _ hexec =>
      obtain ⟨next, -, hlookup⟩ := hexec.lookup_tasks h.wellFormed htask
      have hne : id ≠ taskId := by
        intro heq
        subst heq
        rw [isExecution_iff.2 ⟨inv, caller, rfl, hok⟩] at hnot
        cases hnot
      rw [hlookup, if_neg hne]
      exact ht
  | idle => exact ht
  | initialized => exact ht
  | registered => exact ht
  | closed => exact ht
  | transferred => exact ht

/-- What a step does to a stored task: its schedule advances if the step executes it, and nothing
changes otherwise. -/
theorem task_step (hsha : Function.Injective host.sha256) (h : Scheduled host env) {id : TaskId}
    {t : ExecutionTask Address} (ht : env.tasks.lookup id = some t)
    (action : Action Address TokenState) :
    ∃ next, (step host .debug env action).tasks.lookup id =
        some { t with nextAllowedExecution := next } ∧
      if isExecution host .debug id env action = true then
        t.nextAllowedExecution.val ≤ env.ledgerSequence.val ∧
          next.val = env.ledgerSequence.val + t.executionIntervalLedgers.val
      else next = t.nextAllowedExecution := by
  cases hexec : isExecution host .debug id env action with
  | true =>
      obtain ⟨t', next, ht', hle, hnext, hlookup⟩ := task_of_execution h.wellFormed hexec
      rw [ht] at ht'
      cases ht'
      exact ⟨next, hlookup, by rw [if_pos rfl]; exact ⟨hle, hnext⟩⟩
  | false =>
      exact ⟨t.nextAllowedExecution, task_of_not_execution hsha h ht hexec,
        by rw [if_neg Bool.false_ne_true]⟩

/-! ## Runs -/

/-- The ledger from which a task can be executed. -/
def nextOf (env : Env Address TokenState) (id : TaskId) : Int :=
  match env.tasks.lookup id with
  | some t => t.nextAllowedExecution.val
  | none => 0

omit [DecidableEq Address] in
theorem nextOf_of_some {id : TaskId} {t : ExecutionTask Address}
    (ht : env.tasks.lookup id = some t) : nextOf env id = t.nextAllowedExecution.val := by
  unfold nextOf
  rw [ht]

/-- The task is stored with the given interval and is due at most one interval from now. -/
structure HasInterval (host : Host Address TokenState) (id : TaskId) (interval : U32)
    (env : Env Address TokenState) : Prop where
  scheduled : Scheduled host env
  task : ∃ t, env.tasks.lookup id = some t ∧ t.executionIntervalLedgers = interval ∧
    t.nextAllowedExecution.val ≤ env.ledgerSequence.val + interval.val

theorem HasInterval.step (hsha : Function.Injective host.sha256) {id : TaskId} {interval : U32}
    (h : HasInterval host id interval env) (action : Action Address TokenState) :
    HasInterval host id interval (step host .debug env action) := by
  obtain ⟨t, ht, hinterval, hnext⟩ := h.task
  obtain ⟨next, hlookup, hadvance⟩ := task_step hsha h.scheduled ht action
  have hledger : env.ledgerSequence.val ≤
      (Anchor.step host .debug env action).ledgerSequence.val := ledger_le_step action
  refine ⟨h.scheduled.step action, _, hlookup, hinterval, ?_⟩
  show next.val ≤ _
  split at hadvance
  · rw [hinterval] at hadvance
    omega
  · rw [hadvance]
    omega

theorem HasInterval.run (hsha : Function.Injective host.sha256) {id : TaskId} {interval : U32}
    (h : HasInterval host id interval env) (actions : List (Action Address TokenState)) :
    HasInterval host id interval (run (Anchor.step host .debug) env actions) :=
  run_induction h (fun _ a h => h.step hsha a) actions

/-- A stored task stays stored. -/
theorem tasks_persist (hsha : Function.Injective host.sha256) (h : Scheduled host env)
    {id : TaskId} {t : ExecutionTask Address} (ht : env.tasks.lookup id = some t)
    (actions : List (Action Address TokenState)) :
    ∃ t', (run (step host .debug) env actions).tasks.lookup id = some t' := by
  have hstep : ∀ env (action : Action Address TokenState),
      (Scheduled host env ∧ ∃ t, env.tasks.lookup id = some t) →
        Scheduled host (step host .debug env action) ∧
          ∃ t, (step host .debug env action).tasks.lookup id = some t := by
    rintro env action ⟨hs, u, hu⟩
    obtain ⟨next, hlookup, -⟩ := task_step hsha hs hu action
    exact ⟨hs.step action, _, hlookup⟩
  have hrun := run_induction ⟨h, t, ht⟩ hstep actions
  exact hrun.2

/-- A task is not executed before it is provisioned. -/
theorem not_isExecution_of_absent (hsha : Function.Injective host.sha256) {tokens : TokenState}
    {ledgerSequence : U32} {actions : List (Action Address TokenState)} {id : TaskId}
    (hnone : (run (step host .debug) (deployed tokens ledgerSequence) actions).tasks.lookup id =
      none) :
    ∀ r ∈ trace (step host .debug) (deployed tokens ledgerSequence) actions,
      isExecution host .debug id r.1 r.2 = false := by
  intro r hr
  have hr1 := scheduled_of_mem_trace hr
  cases hexec : isExecution host .debug id r.1 r.2 with
  | false => rfl
  | true =>
      -- An executed task is stored, and it would still be stored at the end of the run.
      obtain ⟨pre, post, hactions, hpre⟩ := mem_trace_iff.1 hr
      obtain ⟨t, -, ht, -⟩ := task_of_execution hr1.wellFormed hexec
      obtain ⟨t', ht'⟩ := tasks_persist hsha hr1 ht (r.2 :: post)
      rw [hactions, run_append, ← hpre, ht'] at hnone
      cases hnone

/-- A successful execution raises the schedule of its task. -/
theorem next_lt_of_execution (h : WellFormed env) {id : TaskId}
    {action : Action Address TokenState}
    (hexec : isExecution host .debug id env action = true) :
    ∃ t t', env.tasks.lookup id = some t ∧
      (step host .debug env action).tasks.lookup id = some t' ∧
      t.nextAllowedExecution.val < t'.nextAllowedExecution.val := by
  obtain ⟨t, next, ht, hle, hnext, hlookup⟩ := task_of_execution h hexec
  have hpos := h.interval_pos ht
  refine ⟨t, _, ht, hlookup, ?_⟩
  show t.nextAllowedExecution.val < next.val
  omega

/-- The ledgers of the successful executions of a task in a run. -/
def executionLedgers (host : Host Address TokenState) (p : Profile) (id : TaskId)
    (env : Env Address TokenState) (actions : List (Action Address TokenState)) : List Int :=
  eventTimes (step host p) (isExecution host p id) (fun env => env.ledgerSequence.val) env actions

/-- From a state with a stored task, its executions come no earlier than scheduled and at least
an interval apart. -/
theorem executions_spaced (hsha : Function.Injective host.sha256) {id : TaskId} {interval : U32}
    (h : HasInterval host id interval env) (actions : List (Action Address TokenState)) :
    (∀ τ ∈ executionLedgers host .debug id env actions, nextOf env id ≤ τ) ∧
      (executionLedgers host .debug id env actions).Pairwise
        (fun τ τ' => τ + interval.val ≤ τ') ∧
      nextOf env id + interval.val * (executionLedgers host .debug id env actions).length ≤
        nextOf (run (step host .debug) env actions) id := by
  -- The gate of the task is its schedule; only its own executions move it.
  have hidle : ∀ env a, HasInterval host id interval env →
      isExecution host .debug id env a = false →
      nextOf env id ≤ nextOf (step host .debug env a) id := by
    intro env a h hnot
    obtain ⟨t, ht, -⟩ := h.task
    rw [nextOf_of_some ht, nextOf_of_some (task_of_not_execution hsha h.scheduled ht hnot)]
  have hevent : ∀ env a, HasInterval host id interval env →
      isExecution host .debug id env a = true →
      nextOf env id ≤ env.ledgerSequence.val ∧
        env.ledgerSequence.val + interval.val ≤ nextOf (step host .debug env a) id := by
    intro env a h hexec
    obtain ⟨t, ht, hinterval, -⟩ := h.task
    obtain ⟨t', next, ht', hle, hnext, hlookup⟩ := task_of_execution h.scheduled.wellFormed hexec
    rw [ht] at ht'
    cases ht'
    rw [nextOf_of_some ht, nextOf_of_some hlookup]
    refine ⟨hle, ?_⟩
    show _ ≤ next.val
    rw [hnext, hinterval]
  exact eventTimes_spaced interval.bounds.1 (fun _ a h => h.step hsha a) hidle hevent actions env h

/-- A successful provisioning call stores a task that was not there before. -/
theorem task_of_provisioning (hsha : Function.Injective host.sha256) (h : Scheduled host env)
    {inv : Invocation Address TokenState} {targetDripList designatedKeeper : Address}
    {interval : U32} {reward : I128} {id : TaskId}
    (hprovision : (invoke host .debug inv
        (.provisionTask targetDripList interval reward designatedKeeper) env).1 =
      .ok (.taskId id)) :
    env.tasks.lookup id = none ∧
      ∃ t, (step host .debug env
          (.call inv (.provisionTask targetDripList interval reward designatedKeeper))).tasks.lookup
            id = some t ∧
        t.executionIntervalLedgers = interval ∧
        t.nextAllowedExecution.val = env.ledgerSequence.val + interval.val := by
  obtain ⟨_, nextCounter, next, hid, htask, hafter⟩ :=
    invoke_provisionTask_eq_ok.1 (Prod.ext hprovision rfl)
  cases hid
  refine ⟨lookup_eq_none_of_provisioning hsha h.freshIds htask,
    ⟨id, targetDripList, interval, next, reward, designatedKeeper⟩, ?_, rfl,
    Profile.val_of_fit_debug htask.nextAllowedExecution⟩
  have hstep : step host .debug env
      (.call inv (.provisionTask targetDripList interval reward designatedKeeper)) = _ := hafter
  rw [hstep, lookup_tasks_provisioned, if_pos rfl]

/-- The executions after the provisioning call of a task. -/
theorem executions_after_provisioning (hsha : Function.Injective host.sha256)
    (h : Scheduled host env) {inv : Invocation Address TokenState}
    {targetDripList designatedKeeper : Address} {interval : U32} {reward : I128} {id : TaskId}
    (hprovision : (invoke host .debug inv
        (.provisionTask targetDripList interval reward designatedKeeper) env).1 =
      .ok (.taskId id)) (after : List (Action Address TokenState)) :
    let env' := step host .debug env
      (.call inv (.provisionTask targetDripList interval reward designatedKeeper))
    (∀ τ ∈ executionLedgers host .debug id env' after,
        env.ledgerSequence.val + interval.val ≤ τ) ∧
      (executionLedgers host .debug id env' after).Pairwise (fun τ τ' => τ + interval.val ≤ τ') ∧
      ((executionLedgers host .debug id env' after).length : Int) ≤
        ((run (step host .debug) env' after).ledgerSequence.val - env.ledgerSequence.val) /
          interval.val := by
  intro env'
  obtain ⟨-, t, ht, hinterval, hnext⟩ := task_of_provisioning hsha h hprovision
  have hscheduled : Scheduled host env' := h.step _
  have hledger : env.ledgerSequence.val ≤ env'.ledgerSequence.val := ledger_le_step _
  have hHas : HasInterval host id interval env' := ⟨hscheduled, t, ht, hinterval, by omega⟩
  obtain ⟨hfirst, hpair, hcount⟩ := executions_spaced hsha hHas after
  have hnextOf : nextOf env' id = env.ledgerSequence.val + interval.val :=
    (nextOf_of_some ht).trans hnext
  refine ⟨?_, hpair, ?_⟩
  · intro τ hτ
    rw [← hnextOf]
    exact hfirst τ hτ
  · -- At the end the task is due at most one interval from the current ledger.
    obtain ⟨u, hu, -, hunext⟩ := (hHas.run hsha after).task
    have hpos : 0 < interval.val := hinterval ▸ hscheduled.wellFormed.interval_pos ht
    rw [hnextOf, nextOf_of_some hu] at hcount
    apply Int.le_ediv_of_mul_le hpos
    rw [mul_comm]
    omega

/-- Replay protection. In any run in which a task is provisioned at ledger `P`, the successful
executions of the task are at least its interval after `P` and after one another, each raises its
schedule, and by ledger `L` there are at most `(L - P) / interval` of them. -/
theorem replay_protection (host : Host Address TokenState)
    (hsha : Function.Injective host.sha256) (tokens : TokenState) (ledgerSequence : U32)
    (before after : List (Action Address TokenState)) (inv : Invocation Address TokenState)
    (targetDripList designatedKeeper : Address) (interval : U32) (reward : I128) (id : TaskId)
    (hprovision : (invoke host .debug inv
        (.provisionTask targetDripList interval reward designatedKeeper)
        (run (step host .debug) (deployed tokens ledgerSequence) before)).1 = .ok (.taskId id)) :
    let start := deployed tokens ledgerSequence
    let actions := before ++
      .call inv (.provisionTask targetDripList interval reward designatedKeeper) :: after
    let P := (run (step host .debug) start before).ledgerSequence.val
    let L := (run (step host .debug) start actions).ledgerSequence.val
    let executions := executionLedgers host .debug id start actions
    (∀ τ ∈ executions, P + interval.val ≤ τ) ∧
      executions.Pairwise (fun τ τ' => τ + interval.val ≤ τ') ∧
      (∀ r ∈ trace (step host .debug) start actions,
        isExecution host .debug id r.1 r.2 = true →
          ∃ t t', r.1.tasks.lookup id = some t ∧
            (step host .debug r.1 r.2).tasks.lookup id = some t' ∧
            t.nextAllowedExecution.val < t'.nextAllowedExecution.val) ∧
      (executions.length : Int) ≤ (L - P) / interval.val := by
  intro start actions P L executions
  have hat : Scheduled host (run (step host .debug) start before) :=
    scheduled_run tokens ledgerSequence before
  obtain ⟨hnone, -⟩ := task_of_provisioning hsha hat hprovision
  obtain ⟨hfirst, hpair, hcount⟩ := executions_after_provisioning hsha hat hprovision after
  -- There are no executions up to and including the provisioning call.
  have hbefore : executionLedgers host .debug id start before = [] :=
    eventTimes_eq_nil (not_isExecution_of_absent hsha hnone)
  have hsplit : executions = executionLedgers host .debug id
      (step host .debug (run (step host .debug) start before)
        (.call inv (.provisionTask targetDripList interval reward designatedKeeper))) after := by
    show executionLedgers host .debug id start (before ++ _ :: after) = _
    unfold executionLedgers at hbefore ⊢
    rw [eventTimes_append, hbefore, List.nil_append, eventTimes_cons_of_neg rfl]
  have hL : L = (run (step host .debug) (step host .debug (run (step host .debug) start before)
      (.call inv (.provisionTask targetDripList interval reward designatedKeeper)))
      after).ledgerSequence.val := by
    show (run (step host .debug) start (before ++ _ :: after)).ledgerSequence.val = _
    rw [run_append, run_cons]
  rw [hsplit, hL]
  refine ⟨hfirst, hpair, ?_, hcount⟩
  intro r hr hexec
  exact next_lt_of_execution (scheduled_of_mem_trace hr).wellFormed hexec

/-- A task of interval 10 provisioned at ledger 0 and executed at ledgers 10 and 21, by its
designated keeper and then by a secondary one. -/
theorem replay_protection_sample :
    let id := sampleSha256 (taskSeed 0 0)
    let executions := executionLedgers sampleHost .debug id (deployed (sampleTokens 1000) 0)
      ([.call sampleInvocation (.initializeContract 2 1 1),
          .call sampleInvocation (.registerKeeper 3 400),
          .call sampleInvocation (.registerKeeper 4 500)] ++
        .call sampleInvocation (.provisionTask 5 10 30 3) ::
        [.closeLedger 10, .call sampleInvocation (.executeDripSplit id 3), .closeLedger 21,
          .call sampleInvocation (.executeDripSplit id 4)])
    executions = [10, 21] ∧ executions.Pairwise fun τ τ' => τ + (10 : U32).val ≤ τ' := by
  refine ⟨by decide +kernel, ?_⟩
  have hspaced := replay_protection sampleHost sampleSha256_injective (sampleTokens 1000) 0
    [.call sampleInvocation (.initializeContract 2 1 1),
      .call sampleInvocation (.registerKeeper 3 400),
      .call sampleInvocation (.registerKeeper 4 500)]
    [.closeLedger 10, .call sampleInvocation (.executeDripSplit (sampleSha256 (taskSeed 0 0)) 3),
      .closeLedger 21, .call sampleInvocation (.executeDripSplit (sampleSha256 (taskSeed 0 0)) 4)]
    sampleInvocation 5 3 10 30 (sampleSha256 (taskSeed 0 0)) (by decide +kernel)
  exact hspaced.2.1

end ChronosKeeper.Anchor
