import ChronosKeeper.Anchor.Accounting
import ChronosKeeper.Anchor.Schedule

/-!
# Slashes over runs

A registered keeper loses stake only by a successful execution, in the grace period of a task it
is designated for, by another registered keeper (`stake_step`). Such an execution
advances the schedule of the task past the current ledger, so no two of them share a window, and
a window in which the task was executed on time or after the grace period has none
(`slashed_once_per_window`).
-/

set_option autoImplicit false

namespace ChronosKeeper.Anchor

open ChronosKeeper.Foundations

variable {Address TokenState : Type} [DecidableEq Address]

/-- The action is a successful execution of the stored task in its grace period, by an authorised
registered caller other than the designated keeper. -/
structure IsSlashStep (host : Host Address TokenState) (p : Profile)
    (env : Env Address TokenState) (action : Action Address TokenState) (id : TaskId)
    (task : ExecutionTask Address) : Prop where
  stored : env.tasks.lookup id = some task
  inGrace : InGrace env task
  call : ∃ inv caller, action = .call inv (.executeDripSplit id caller) ∧
    Succeeds host p inv (.executeDripSplit id caller) env ∧ inv.authorized caller = true ∧
    isRegistered env caller = true ∧ caller ≠ task.designatedKeeper

variable {host : Host Address TokenState} {p : Profile} {env : Env Address TokenState}

theorem IsSlashStep.isExecution {action : Action Address TokenState} {id : TaskId}
    {task : ExecutionTask Address} (h : IsSlashStep host p env action id task) :
    isExecution host p id env action = true := by
  obtain ⟨inv, caller, hcall, hok, -⟩ := h.call
  exact isExecution_iff.2 ⟨inv, caller, hcall, hok⟩

/-- The stake of a keeper after a distribution is the stake before it. -/
theorem stake_distributed (task : ExecutionTask Address) (h : WellFormed env)
    {caller K : Address} {d : Distribution Address TokenState} {k : Keeper Address}
    (hd : env.keepers.lookup caller = some d.keeper) (isSecondary : Bool)
    (hk : env.keepers.lookup K = some k) :
    ∃ k', (distributed env task caller isSecondary d).keepers.lookup K = some k' ∧
      k'.stakeAmount = k.stakeAmount := by
  rw [lookup_keepers_distributed task h hd isSecondary K]
  split
  · rename_i hcaller
    rw [hcaller, hd] at hk
    cases hk
    exact ⟨_, rfl, rfl⟩
  · exact ⟨k, hk, rfl⟩

/-- A registered keeper keeps its record, and the record keeps its stake unless the step slashes
the keeper. -/
theorem stake_step (h : WellFormed env) {K : Address} {k : Keeper Address}
    (hk : env.keepers.lookup K = some k) (action : Action Address TokenState) :
    ∃ k', (step host p env action).keepers.lookup K = some k' ∧
      (k'.stakeAmount ≠ k.stakeAmount →
        ∃ id task, IsSlashStep host p env action id task ∧ task.designatedKeeper = K) := by
  have heffect := step_effect host p env action
  generalize step host p env action = env' at heffect
  -- Outside the grace period the stake is unchanged.
  have hsame : (∃ k', env'.keepers.lookup K = some k' ∧ k'.stakeAmount = k.stakeAmount) →
      ∃ k', env'.keepers.lookup K = some k' ∧ (k'.stakeAmount ≠ k.stakeAmount →
        ∃ id task, IsSlashStep host p env action id task ∧ task.designatedKeeper = K) := by
    rintro ⟨k', hk', hstake⟩
    exact ⟨k', hk', fun hne => absurd hstake hne⟩
  cases heffect with
  | registered inv keeper stakeAmount _ _ _ hnew =>
      -- Registration is refused to a registered address.
      have hne : K ≠ keeper := by
        intro heq
        rw [heq, hnew] at hk
        cases hk
      apply hsame
      rw [lookup_keepers_registered, if_neg hne]
      exact ⟨k, hk, rfl⟩
  | executed inv taskId caller task env' hok htask hauth hexec =>
      cases hexec with
      | designated d hledger hcaller hd => exact hsame (stake_distributed task h hd.keeper false hk)
      | postGrace elapsed d hgrace hregistered helapsed hd =>
          exact hsame (stake_distributed task (h.missed taskId elapsed) hd.keeper false hk)
      | grace kd a t d st hopen hgrace hcaller hregistered hkd hstake hformula htreasury hd hpay =>
          have hW := h.slashed task.designatedKeeper kd a t
          have hkeeper := lookup_keepers_slashed h hkd a t K
          by_cases hK : K = task.designatedKeeper
          · -- The designated keeper is the one that is slashed.
            rw [if_pos hK] at hkeeper
            obtain ⟨k', hk', -⟩ := stake_distributed task hW hd.keeper true hkeeper
            exact ⟨k', hk', fun _ => ⟨taskId, task, ⟨htask, ⟨hopen, hgrace⟩,
              ⟨inv, caller, rfl, hok, hauth, hregistered, hcaller⟩⟩, hK.symm⟩⟩
          · rw [if_neg hK, hk] at hkeeper
            exact hsame (stake_distributed task hW hd.keeper true hkeeper)
  | idle => exact hsame ⟨k, hk, rfl⟩
  | initialized => exact hsame ⟨k, hk, rfl⟩
  | provisioned => exact hsame ⟨k, hk, rfl⟩
  | closed => exact hsame ⟨k, hk, rfl⟩
  | transferred => exact hsame ⟨k, hk, rfl⟩

/-- An execution puts all later states of the task an interval past it. -/
theorem next_after_execution (hsha : Function.Injective host.sha256) (h : Scheduled host env)
    {id : TaskId} {task : ExecutionTask Address} (ht : env.tasks.lookup id = some task)
    {action : Action Address TokenState} (hexec : isExecution host .debug id env action = true)
    (mid : List (Action Address TokenState)) {task' : ExecutionTask Address}
    (ht' : (run (step host .debug) (step host .debug env action) mid).tasks.lookup id =
      some task') :
    env.ledgerSequence.val + task.executionIntervalLedgers.val ≤
      task'.nextAllowedExecution.val := by
  obtain ⟨t, next, hstored, hle, hnext, hlookup⟩ := task_of_execution h.wellFormed hexec
  rw [ht] at hstored
  cases hstored
  have hledger : env.ledgerSequence.val ≤ (step host .debug env action).ledgerSequence.val :=
    ledger_le_step action
  -- From the state after the execution on, the schedule never falls back.
  have hHas : HasInterval host id task.executionIntervalLedgers (step host .debug env action) :=
    ⟨h.step action, _, hlookup, rfl, by show next.val ≤ _; omega⟩
  obtain ⟨-, -, hgate⟩ := executions_spaced hsha hHas mid
  rw [nextOf_of_some hlookup, nextOf_of_some ht'] at hgate
  have hcount : 0 ≤ task.executionIntervalLedgers.val *
      ((executionLedgers host .debug id (step host .debug env action) mid).length : Int) :=
    mul_nonneg task.executionIntervalLedgers.bounds.1 (Int.natCast_nonneg _)
  have hstart : (ExecutionTask.nextAllowedExecution
    { task with nextAllowedExecution := next }).val = next.val := rfl
  omega

/-- Of two executions of one task in a run, the later one finds a schedule at least an interval
past the earlier one. -/
theorem next_of_later_execution (hsha : Function.Injective host.sha256) {tokens : TokenState}
    {ledgerSequence : U32} {actions : List (Action Address TokenState)} {i j : Nat}
    {r r' : Env Address TokenState × Action Address TokenState} (hij : i < j)
    (hr : (trace (step host .debug) (deployed tokens ledgerSequence) actions)[i]? = some r)
    (hr' : (trace (step host .debug) (deployed tokens ledgerSequence) actions)[j]? = some r')
    {id : TaskId} {task task' : ExecutionTask Address} (ht : r.1.tasks.lookup id = some task)
    (ht' : r'.1.tasks.lookup id = some task')
    (hexec : isExecution host .debug id r.1 r.2 = true) :
    r.1.ledgerSequence.val + task.executionIntervalLedgers.val ≤
      task'.nextAllowedExecution.val := by
  obtain ⟨mid, hmid⟩ := run_of_getElem?_lt hij hr hr'
  rw [hmid] at ht'
  exact next_after_execution hsha (scheduled_of_mem_trace (List.mem_of_getElem? hr)) ht hexec mid
    ht'

/-- A keeper is slashed only for a missed window of a task it is designated for, at most once for
each window, and not at all for a window in which the task was executed on time or after the grace
period. -/
theorem slashed_once_per_window (host : Host Address TokenState)
    (hsha : Function.Injective host.sha256) (tokens : TokenState) (ledgerSequence : U32)
    (actions : List (Action Address TokenState)) (K : Address) :
    let steps := trace (step host .debug) (deployed tokens ledgerSequence) actions
    (∀ r ∈ steps, ∀ k, r.1.keepers.lookup K = some k →
      ∃ k', (step host .debug r.1 r.2).keepers.lookup K = some k' ∧
        (k'.stakeAmount ≠ k.stakeAmount →
          ∃ id task, IsSlashStep host .debug r.1 r.2 id task ∧ task.designatedKeeper = K)) ∧
    (∀ (i j : Nat) (r r' : Env Address TokenState × Action Address TokenState), i < j →
      steps[i]? = some r → steps[j]? = some r' → ∀ id task task',
      IsSlashStep host .debug r.1 r.2 id task → IsSlashStep host .debug r'.1 r'.2 id task' →
        r.1.ledgerSequence.val + task.executionIntervalLedgers.val ≤
            task'.nextAllowedExecution.val ∧
          task.nextAllowedExecution.val ≠ task'.nextAllowedExecution.val) ∧
    (∀ (i j : Nat) (r r' : Env Address TokenState × Action Address TokenState),
      steps[i]? = some r → steps[j]? = some r' → ∀ id task task',
      isExecution host .debug id r.1 r.2 = true → r.1.tasks.lookup id = some task →
      (r.1.ledgerSequence.val = task.nextAllowedExecution.val ∨
        task.nextAllowedExecution.val + 50 < r.1.ledgerSequence.val) →
      IsSlashStep host .debug r'.1 r'.2 id task' →
        task'.nextAllowedExecution.val ≠ task.nextAllowedExecution.val) := by
  intro steps
  refine ⟨?_, ?_, ?_⟩
  · intro r hr k hk
    exact stake_step (scheduled_of_mem_trace hr).wellFormed hk r.2
  · intro i j r r' hij hr hr' id task task' hslash hslash'
    -- The earlier slash has put the schedule past its own ledger, hence past its window.
    have hlater := next_of_later_execution hsha hij hr hr' hslash.stored hslash'.stored
      hslash.isExecution
    have hopen := hslash.inGrace.1
    have hpos := task.executionIntervalLedgers.bounds.1
    exact ⟨hlater, by omega⟩
  · intro i j r r' hr hr' id task task' hexec ht hwindow hslash'
    have hat := scheduled_of_mem_trace (List.mem_of_getElem? hr)
    have hopen' := hslash'.inGrace.1
    have hgrace' := hslash'.inGrace.2
    rcases lt_trichotomy i j with hij | rfl | hji
    · -- The slash comes later: the execution has moved the schedule past the window.
      have hlater := next_of_later_execution hsha hij hr hr' ht hslash'.stored hexec
      have hpos := hat.wellFormed.interval_pos ht
      omega
    · -- The same step would be inside and outside the grace period.
      rw [hr] at hr'
      cases hr'
      have hstored := hslash'.stored
      rw [ht] at hstored
      cases hstored
      omega
    · -- The slash comes earlier: it has moved the schedule past its own window.
      have hlater := next_of_later_execution hsha hji hr' hr hslash'.stored ht
        hslash'.isExecution
      have hpos := task'.executionIntervalLedgers.bounds.1
      omega

/-- A keeper with two missed windows in a row is slashed by the executions at ledgers 11 and 22. -/
theorem slashed_once_per_window_sample :
    let actions : List (Action Nat (TokenLedger Nat)) :=
      [.call sampleInvocation (.initializeContract 2 1 1),
        .call sampleInvocation (.registerKeeper 3 400),
        .call sampleInvocation (.registerKeeper 4 500),
        .call sampleInvocation (.provisionTask 5 10 30 3), .closeLedger 11,
        .call sampleInvocation (.executeDripSplit (sampleSha256 (taskSeed 0 0)) 4),
        .closeLedger 22,
        .call sampleInvocation (.executeDripSplit (sampleSha256 (taskSeed 0 0)) 4)]
    let steps := trace (step sampleHost .debug) (deployed (sampleTokens 1000) 0) actions
    ((run (step sampleHost .debug) (deployed (sampleTokens 1000) 0) actions).keepers.lookup 3).map
        (fun k => k.stakeAmount.val) = some 361 ∧
      ∀ r ∈ steps, ∀ k, r.1.keepers.lookup 3 = some k →
        ∃ k', (step sampleHost .debug r.1 r.2).keepers.lookup 3 = some k' ∧
          (k'.stakeAmount ≠ k.stakeAmount →
            ∃ id task, IsSlashStep sampleHost .debug r.1 r.2 id task ∧
              task.designatedKeeper = 3) := by
  intro actions steps
  refine ⟨by decide +kernel, ?_⟩
  have hslashed := slashed_once_per_window sampleHost sampleSha256_injective (sampleTokens 1000) 0
    actions 3
  exact hslashed.1

end ChronosKeeper.Anchor
