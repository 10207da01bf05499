import ChronosKeeper.Anchor.Schedule
import ChronosKeeper.Anchor.Integrity

/-!
# Provisioning over runs

The identifier of a task is the hash of a counter that only a successful provisioning call
advances. With a hash that is injective on seeds no identifier is therefore given out twice, and a
stored task stems from one provisioning call of the run (`task_identity`).

Addition aborts on overflow.
-/

set_option autoImplicit false

namespace ChronosKeeper.Anchor

open ChronosKeeper.Foundations

variable {Address TokenState : Type} [DecidableEq Address]

/-- The identifier that a successful provisioning call returns. -/
def provisionedId (host : Host Address TokenState) (p : Profile) (env : Env Address TokenState) :
    Action Address TokenState → Option TaskId
  | .call inv (.provisionTask targetDripList interval reward designatedKeeper) =>
      match (invoke host p inv (.provisionTask targetDripList interval reward designatedKeeper)
        env).1 with
      | .ok (.taskId id) => some id
      | _ => none
  | _ => none

/-- The identifiers that the provisioning calls of a run return, in order. -/
def provisionedIds (host : Host Address TokenState) (p : Profile) (env : Env Address TokenState)
    (actions : List (Action Address TokenState)) : List TaskId :=
  outputs (step host p) (provisionedId host p) env actions

/-- The action is the provisioning call that returned `id`, with the arguments found in `t`. -/
def Creates (host : Host Address TokenState) (p : Profile) (id : TaskId)
    (t : ExecutionTask Address) (env : Env Address TokenState)
    (action : Action Address TokenState) : Prop :=
  ∃ inv, action = .call inv (.provisionTask t.targetDripList t.executionIntervalLedgers
      t.microRewardPerRun t.designatedKeeper) ∧
    provisionedId host p env action = some id

variable {host : Host Address TokenState} {p : Profile} {env : Env Address TokenState}
  {action : Action Address TokenState} {id : TaskId}

/-- What a provisioning call that returned an identifier has checked and done. -/
theorem provisionedId_eq_some (h : provisionedId host p env action = some id) :
    ∃ inv nextCounter task, action = .call inv (.provisionTask task.targetDripList
        task.executionIntervalLedgers task.microRewardPerRun task.designatedKeeper) ∧
      task.taskId = id ∧ IsProvisioning host p inv env nextCounter task ∧
      step host p env action = provisioned env nextCounter task := by
  unfold provisionedId at h
  split at h
  · rename_i inv targetDripList interval reward designatedKeeper
    split at h
    · rename_i id' hid
      cases h
      obtain ⟨_, nextCounter, next, hv, htask, hafter⟩ :=
        invoke_provisionTask_eq_ok.1 (Prod.ext hid rfl)
      cases hv
      exact ⟨inv, nextCounter, _, rfl, rfl, htask, hafter⟩
    · cases h
  · cases h

theorem provisionedId_of_provisioning {inv : Invocation Address TokenState} {nextCounter : U32}
    {task : ExecutionTask Address} (htask : IsProvisioning host p inv env nextCounter task) :
    provisionedId host p env (.call inv (.provisionTask task.targetDripList
      task.executionIntervalLedgers task.microRewardPerRun task.designatedKeeper)) =
        some task.taskId := by
  have hinvoke : invoke host p inv (.provisionTask task.targetDripList
      task.executionIntervalLedgers task.microRewardPerRun task.designatedKeeper) env =
      (.ok (.taskId task.taskId), provisioned env nextCounter task) :=
    invoke_provisionTask_eq_ok.2 ⟨task.taskId, nextCounter, task.nextAllowedExecution, rfl, htask,
      rfl⟩
  simp only [provisionedId, hinvoke]

/-- Without a returned identifier, a provisioning call has failed. -/
theorem not_succeeds_of_provisionedId {inv : Invocation Address TokenState}
    {targetDripList designatedKeeper : Address} {interval : U32} {reward : I128}
    (h : provisionedId host p env
      (.call inv (.provisionTask targetDripList interval reward designatedKeeper)) = none) :
    ¬ Succeeds host p inv (.provisionTask targetDripList interval reward designatedKeeper) env := by
  intro hok
  obtain ⟨v, hv⟩ := invoke_of_succeeds hok
  obtain ⟨taskId, nextCounter, next, -, htask, -⟩ := invoke_provisionTask_eq_ok.1 hv
  have hid := provisionedId_of_provisioning htask
  rw [h] at hid
  cases hid

/-! ## One step -/

/-- A provisioning call writes under an identifier that is not in use. -/
theorem provisionedId_fresh (hsha : Function.Injective host.sha256) (h : Scheduled host env)
    (hid : provisionedId host .debug env action = some id) :
    env.tasks.lookup id = none ∧
      (∃ t, (step host .debug env action).tasks.lookup id = some t) ∧
      ∀ id' t', env.tasks.lookup id' = some t' →
        (step host .debug env action).tasks.lookup id' = some t' := by
  obtain ⟨inv, nextCounter, task, -, rfl, htask, hstep⟩ := provisionedId_eq_some hid
  have hnone := lookup_eq_none_of_provisioning hsha h.freshIds htask
  rw [hstep]
  refine ⟨hnone, ⟨task, ?_⟩, ?_⟩
  · rw [lookup_tasks_provisioned, if_pos rfl]
  · intro id' t' ht'
    rw [lookup_tasks_provisioned, if_neg, ht']
    rintro rfl
    rw [hnone] at ht'
    cases ht'

/-- The counter advances by one with every identifier and stays put otherwise. -/
theorem taskCounter_step (action : Action Address TokenState) :
    ((step host .debug env action).taskCounter.getD 0).val = (env.taskCounter.getD 0).val +
      if (provisionedId host .debug env action).isSome = true then 1 else 0 := by
  cases hid : provisionedId host .debug env action with
  | some id =>
      obtain ⟨inv, nextCounter, task, -, -, htask, hstep⟩ := provisionedId_eq_some hid
      rw [hstep]
      exact Profile.val_of_fit_debug htask.counter
  | none =>
      have heffect := step_effect host .debug env action
      generalize step host .debug env action = env' at heffect
      have hzero : (if (none : Option TaskId).isSome = true then (1 : Int) else 0) = 0 := rfl
      rw [hzero, add_zero]
      cases heffect with
      | provisioned inv nextCounter task hok =>
          exact absurd hok (not_succeeds_of_provisionedId hid)
      | executed inv taskId caller task env' _ _ _ hexec =>
          rw [hexec.instance_eq.2.2.2.2]
      | idle => rfl
      | initialized => rfl
      | registered => rfl
      | closed => rfl
      | transferred => rfl

/-- A task found after a step was created by it, or was there before with another schedule at
most. -/
theorem stored_step (h : WellFormed env) {t : ExecutionTask Address}
    (ht : (step host p env action).tasks.lookup id = some t) :
    Creates host p id t env action ∨
      ∃ t' next, env.tasks.lookup id = some t' ∧ t = { t' with nextAllowedExecution := next } := by
  have heffect := step_effect host p env action
  generalize step host p env action = env' at heffect ht
  -- A step that does not write tasks leaves the schedule as it is, too.
  have hsame : env.tasks.lookup id = some t → Creates host p id t env action ∨
      ∃ t' next, env.tasks.lookup id = some t' ∧ t = { t' with nextAllowedExecution := next } :=
    fun hold => Or.inr ⟨t, t.nextAllowedExecution, hold, rfl⟩
  cases heffect with
  | provisioned inv nextCounter task _ htask =>
      rw [lookup_tasks_provisioned] at ht
      split at ht
      · rename_i hid
        cases ht
        exact Or.inl ⟨inv, rfl, hid ▸ provisionedId_of_provisioning htask⟩
      · exact hsame ht
  | executed inv taskId caller task env' _ htask _ hexec =>
      obtain ⟨next, -, hlookup⟩ := hexec.lookup_tasks h htask
      rw [hlookup] at ht
      split at ht
      · rename_i hid
        cases ht
        exact Or.inr ⟨task, next, hid ▸ htask, rfl⟩
      · exact hsame ht
  | idle => exact hsame ht
  | initialized => exact hsame ht
  | registered => exact hsame ht
  | closed => exact hsame ht
  | transferred => exact hsame ht

/-! ## Runs -/

/-- No identifier is returned twice. -/
theorem provisionedIds_nodup (hsha : Function.Injective host.sha256) (tokens : TokenState)
    (ledgerSequence : U32) (actions : List (Action Address TokenState)) :
    (provisionedIds host .debug (deployed tokens ledgerSequence) actions).Nodup := by
  have hdistinct : ∀ env, Scheduled host env →
      (outputs (step host .debug) (provisionedId host .debug) env actions).Nodup ∧
        ∀ id ∈ outputs (step host .debug) (provisionedId host .debug) env actions,
          ¬ ∃ t, env.tasks.lookup id = some t :=
    outputs_nodup
    (fun _ action h => h.step action)
    (fun env action id h hid => by
      obtain ⟨hnone, hstored, -⟩ := provisionedId_fresh hsha h hid
      refine ⟨?_, hstored⟩
      rintro ⟨t, ht⟩
      rw [hnone] at ht
      cases ht)
    (fun env action id h hused => by
      obtain ⟨t, ht⟩ := hused
      exact tasks_stay_stored h.wellFormed ht action)
    actions
  exact (hdistinct _ (scheduled_deployed tokens ledgerSequence)).1

/-- Every stored task was created by a provisioning call of the run. -/
theorem creates_of_stored (tokens : TokenState) (ledgerSequence : U32)
    (actions : List (Action Address TokenState)) {id : TaskId} {t : ExecutionTask Address}
    (ht : (run (step host .debug) (deployed tokens ledgerSequence) actions).tasks.lookup id =
      some t) :
    ∃ r ∈ trace (step host .debug) (deployed tokens ledgerSequence) actions,
      Creates host .debug id t r.1 r.2 := by
  induction actions using List.reverseRecOn generalizing t with
  | nil => cases ht
  | append_singleton actions action ih =>
      rw [run_concat] at ht
      rcases stored_step (wellFormed_run host .debug tokens ledgerSequence actions) ht with
        hcreates | ⟨t', next, ht', rfl⟩
      · exact ⟨_, mem_trace_iff.2 ⟨actions, [], rfl, rfl⟩, hcreates⟩
      · -- The arguments of the call are those of the earlier record.
        obtain ⟨r, hr, hcreates⟩ := ih ht'
        rw [trace_append]
        exact ⟨r, List.mem_append_left _ hr, hcreates⟩

/-- Two calls of a run that return the same identifier are the same call. -/
theorem position_unique (hsha : Function.Injective host.sha256) {tokens : TokenState}
    {ledgerSequence : U32} {actions : List (Action Address TokenState)} {id : TaskId} {i j : Nat}
    {r r' : Env Address TokenState × Action Address TokenState}
    (hr : (trace (step host .debug) (deployed tokens ledgerSequence) actions)[i]? = some r)
    (hr' : (trace (step host .debug) (deployed tokens ledgerSequence) actions)[j]? = some r')
    (hid : provisionedId host .debug r.1 r.2 = some id)
    (hid' : provisionedId host .debug r'.1 r'.2 = some id) : ¬ i < j := by
  intro hlt
  obtain ⟨mid, hmid⟩ := run_of_getElem?_lt hlt hr hr'
  -- The task written by the earlier call is still there when the later one is made.
  have hs := scheduled_of_mem_trace (List.mem_of_getElem? hr)
  have hs' := scheduled_of_mem_trace (List.mem_of_getElem? hr')
  obtain ⟨-, ⟨t, ht⟩, -⟩ := provisionedId_fresh hsha hs hid
  obtain ⟨hnone, -, -⟩ := provisionedId_fresh hsha hs' hid'
  obtain ⟨t', ht'⟩ := (keeps_run (hs.wellFormed.step r.2) mid).tasks id t ht
  rw [hmid, ht'] at hnone
  cases hnone

/-- The counter is the number of identifiers that have been returned. -/
theorem taskCounter_eq_length (tokens : TokenState) (ledgerSequence : U32)
    (actions : List (Action Address TokenState)) :
    ((run (step host .debug) (deployed tokens ledgerSequence) actions).taskCounter.getD 0).val =
      (provisionedIds host .debug (deployed tokens ledgerSequence) actions).length := by
  have hcount := @run_eq_add_eventCount _ _ (step host .debug) (fun _ => True)
    (fun env => (env.taskCounter.getD 0).val)
    (fun env action => (provisionedId host .debug env action).isSome)
    (deployed tokens ledgerSequence) trivial (fun _ _ _ => trivial)
    (fun env action _ hnot => by rw [taskCounter_step, hnot, if_neg Bool.false_ne_true, add_zero])
    (fun env action _ hid => by rw [taskCounter_step, hid, if_pos rfl]) actions
  rw [hcount]
  unfold provisionedIds outputs
  rw [List.length_filterMap_eq_countP]
  exact zero_add _

/-- In any run the identifiers that provisioning calls return are distinct, no call overwrites a
stored task, every stored task was created by exactly one call, and only successful calls advance
the counter. -/
theorem task_identity (host : Host Address TokenState) (hsha : Function.Injective host.sha256)
    (tokens : TokenState) (ledgerSequence : U32) (actions : List (Action Address TokenState)) :
    let start := deployed tokens ledgerSequence
    let steps := trace (step host .debug) start actions
    let final := run (step host .debug) start actions
    (provisionedIds host .debug start actions).Nodup ∧
      (∀ r ∈ steps, ∀ id, provisionedId host .debug r.1 r.2 = some id →
        r.1.tasks.lookup id = none ∧ ∀ id' t', r.1.tasks.lookup id' = some t' →
          (step host .debug r.1 r.2).tasks.lookup id' = some t') ∧
      (∀ id t, final.tasks.lookup id = some t →
        ∃ (i : Nat) (env : Env Address TokenState) (action : Action Address TokenState),
          steps[i]? = some (env, action) ∧ Creates host .debug id t env action ∧
          ∀ (j : Nat) (r : Env Address TokenState × Action Address TokenState),
            steps[j]? = some r → provisionedId host .debug r.1 r.2 = some id → j = i) ∧
      (final.taskCounter.getD 0).val = (provisionedIds host .debug start actions).length ∧
      ∀ r ∈ steps, ∀ inv targetDripList interval reward designatedKeeper,
        r.2 = .call inv (.provisionTask targetDripList interval reward designatedKeeper) →
          provisionedId host .debug r.1 r.2 = none → step host .debug r.1 r.2 = r.1 := by
  intro start steps final
  refine ⟨provisionedIds_nodup hsha tokens ledgerSequence actions, ?_, ?_,
    taskCounter_eq_length tokens ledgerSequence actions, ?_⟩
  · intro r hr id hid
    obtain ⟨hnone, -, hothers⟩ := provisionedId_fresh hsha (scheduled_of_mem_trace hr) hid
    exact ⟨hnone, hothers⟩
  · intro id t ht
    obtain ⟨⟨env, action⟩, hr, hcreates⟩ := creates_of_stored tokens ledgerSequence actions ht
    obtain ⟨i, hi⟩ := List.mem_iff_getElem?.1 hr
    refine ⟨i, env, action, hi, hcreates, ?_⟩
    intro j r hj hid
    obtain ⟨inv, -, hreturned⟩ := hcreates
    have hij := position_unique hsha hi hj hreturned hid
    have hji := position_unique hsha hj hi hid hreturned
    omega
  · rintro ⟨env, action⟩ - inv targetDripList interval reward designatedKeeper rfl hnone
    exact invoke_of_not_succeeds (Or.inl (not_succeeds_of_provisionedId hnone))

/-- Two tasks with the same arguments, provisioned in the same ledger, and a call that fails. -/
theorem task_identity_sample :
    let ids := provisionedIds sampleHost .debug (deployed (sampleTokens 1000) 0)
      [.call sampleInvocation (.initializeContract 2 1 1),
        .call sampleInvocation (.registerKeeper 3 400),
        .call sampleInvocation (.provisionTask 5 10 30 3),
        .call sampleInvocation (.provisionTask 5 0 30 3),
        .call sampleInvocation (.provisionTask 5 10 30 3)]
    ids.length = 2 ∧ ids.Nodup := by
  intro ids
  refine ⟨by decide +kernel, ?_⟩
  exact (task_identity sampleHost sampleSha256_injective (sampleTokens 1000) 0 _).1

end ChronosKeeper.Anchor
