import ChronosKeeper.Anchor.Records

/-!
# Schedules where overflow wraps

Provisioning and execution compute the next window of a task as the current ledger plus the
interval, in an `u32`. The interval is checked to be positive, but not to leave room for the
ledger. In the release profile the sum then wraps around and the task is scheduled for a ledger
that is already past: a schedule is ahead of the ledger exactly when the sum fits
(`schedules_ahead_iff`), and otherwise the task is at once in its own grace period or past it
(`provisioned_in_grace`).
-/

set_option autoImplicit false

namespace ChronosKeeper.Anchor

open ChronosKeeper.Foundations

variable {Address TokenState : Type} [DecidableEq Address]

/-- The task is stored, and it is scheduled for a ledger still to come. -/
def ScheduledAhead (env env' : Env Address TokenState) (id : TaskId) : Prop :=
  ∃ t, env'.tasks.lookup id = some t ∧
    env.ledgerSequence.val < t.nextAllowedExecution.val ∧
    regionOf t.nextAllowedExecution.val env.ledgerSequence.val = .preWindow

/-- A provisioning that succeeds schedules its task ahead, and so does an execution that succeeds,
also with respect to the window before. -/
def SchedulesAhead (host : Host Address TokenState) (p : Profile) (env : Env Address TokenState) :
    Action Address TokenState → Prop
  | .call inv (.provisionTask targetDripList interval reward designatedKeeper) => ∀ id,
      (invoke host p inv (.provisionTask targetDripList interval reward designatedKeeper) env).1 =
          .ok (.taskId id) →
        ScheduledAhead env (step host p env
          (.call inv (.provisionTask targetDripList interval reward designatedKeeper))) id
  | .call inv (.executeDripSplit id caller) => ∀ t, env.tasks.lookup id = some t →
      Succeeds host p inv (.executeDripSplit id caller) env →
        ScheduledAhead env (step host p env (.call inv (.executeDripSplit id caller))) id ∧
        ∃ t', (step host p env (.call inv (.executeDripSplit id caller))).tasks.lookup id =
          some t' ∧ t.nextAllowedExecution.val < t'.nextAllowedExecution.val
  | _ => True

/-- In a call that succeeds, the ledger plus the interval of the task fits. -/
def ScheduleFits (host : Host Address TokenState) (p : Profile) (env : Env Address TokenState) :
    Action Address TokenState → Prop
  | .call inv (.provisionTask targetDripList interval reward designatedKeeper) =>
      Succeeds host p inv (.provisionTask targetDripList interval reward designatedKeeper) env →
        env.ledgerSequence.val + interval.val ≤ IntTy.u32.max
  | .call inv (.executeDripSplit id caller) => ∀ t, env.tasks.lookup id = some t →
      Succeeds host p inv (.executeDripSplit id caller) env →
        env.ledgerSequence.val + t.executionIntervalLedgers.val ≤ IntTy.u32.max
  | _ => True

variable {host : Host Address TokenState} {inv : Invocation Address TokenState}
  {env env' : Env Address TokenState}

/-! ## One addition -/

/-- A wrapping sum with a positive summand is past the other one exactly when it fits. -/
theorem lt_add_release_iff {l interval next : U32} (h : Profile.release.add l interval = some next)
    (hpos : 0 < interval.val) : l.val < next.val ↔ l.val + interval.val ≤ IntTy.u32.max := by
  have hnext : 0 + (l.val + interval.val - 0) % 4294967296 = next.val :=
    congrArg MachineInt.val (Option.some.inj h)
  have hmax : IntTy.u32.max = 4294967295 := rfl
  have hl := l.bounds
  have hinterval := interval.bounds
  omega

omit [DecidableEq Address] in
theorem scheduledAhead_iff {id : TaskId} {t : ExecutionTask Address} {interval : U32}
    (ht : env'.tasks.lookup id = some t) (hpos : 0 < interval.val)
    (hnext : Profile.release.add env.ledgerSequence interval = some t.nextAllowedExecution) :
    ScheduledAhead env env' id ↔ env.ledgerSequence.val + interval.val ≤ IntTy.u32.max := by
  rw [← lt_add_release_iff hnext hpos]
  constructor
  · rintro ⟨t', ht', hahead, -⟩
    rw [ht] at ht'
    cases ht'
    exact hahead
  · intro hahead
    exact ⟨t, ht, hahead, if_pos hahead⟩

/-! ## One step -/

theorem schedulesAhead_provisionTask_iff (targetDripList : Address) (interval : U32)
    (reward : I128) (designatedKeeper : Address) :
    SchedulesAhead host .release env
        (.call inv (.provisionTask targetDripList interval reward designatedKeeper)) ↔
      ScheduleFits host .release env
        (.call inv (.provisionTask targetDripList interval reward designatedKeeper)) := by
  -- A call that succeeds writes the task under the identifier it returns.
  have hcall : ∀ {v}, (invoke host .release inv
      (.provisionTask targetDripList interval reward designatedKeeper) env).1 = .ok v →
      ∃ id, v = .taskId id ∧ (ScheduledAhead env (step host .release env
          (.call inv (.provisionTask targetDripList interval reward designatedKeeper))) id ↔
        env.ledgerSequence.val + interval.val ≤ IntTy.u32.max) := by
    intro v hv
    obtain ⟨id, nextCounter, next, rfl, htask, henv⟩ :=
      invoke_provisionTask_eq_ok.1 (Prod.ext hv rfl)
    -- an interval of zero is rejected
    have hpos : 0 < interval.val := by
      have hne : interval.val ≠ (0 : U32).val := MachineInt.val_ne htask.interval_ne_zero
      have hzero : (0 : U32).val = 0 := rfl
      have hb := interval.bounds
      omega
    have hstored : ∀ task : ExecutionTask Address, task.taskId = id →
        (provisioned env nextCounter task).tasks.lookup id = some task := by
      rintro task rfl
      rw [lookup_tasks_provisioned, if_pos rfl]
    exact ⟨id, rfl, scheduledAhead_iff
      ((congrArg (fun e => e.tasks.lookup id) henv).trans (hstored _ rfl)) hpos
      htask.nextAllowedExecution⟩
  constructor
  · rintro hahead ⟨v, hv⟩
    obtain ⟨id, rfl, hiff⟩ := hcall hv
    exact hiff.1 (hahead id hv)
  · intro hfits id hv
    obtain ⟨id', hid, hiff⟩ := hcall hv
    cases hid
    exact hiff.2 (hfits ⟨_, hv⟩)

theorem schedulesAhead_executeDripSplit_iff (h : WellFormed env) (id : TaskId) (caller : Address) :
    SchedulesAhead host .release env (.call inv (.executeDripSplit id caller)) ↔
      ScheduleFits host .release env (.call inv (.executeDripSplit id caller)) := by
  refine forall_congr' fun t => forall_congr' fun ht => forall_congr' fun hok => ?_
  obtain ⟨t', ht', -, hexec⟩ := executes_of_succeeds hok
  rw [ht] at ht'
  cases ht'
  obtain ⟨next, hnext, hlookup⟩ := hexec.lookup_tasks h ht
  -- the task is stored with the sum of the ledger and its interval
  have hstored := (hlookup id).trans (if_pos rfl)
  have hiff := scheduledAhead_iff hstored (h.interval_pos ht) hnext
  -- An execution comes at or after the old window, so a schedule ahead is past that one as well.
  refine ⟨fun hahead => hiff.1 hahead.1, fun hfits => ⟨hiff.2 hfits, _, hstored, ?_⟩⟩
  have hlate := hexec.next_le_ledger
  have hahead := (lt_add_release_iff hnext (h.interval_pos ht)).2 hfits
  exact hlate.trans_lt hahead

theorem schedulesAhead_iff (h : WellFormed env) (action : Action Address TokenState) :
    SchedulesAhead host .release env action ↔ ScheduleFits host .release env action := by
  cases action with
  | call inv c =>
      cases c with
      | provisionTask targetDripList interval reward designatedKeeper =>
          exact schedulesAhead_provisionTask_iff targetDripList interval reward designatedKeeper
      | executeDripSplit id caller => exact schedulesAhead_executeDripSplit_iff h id caller
      | initializeContract => exact Iff.rfl
      | registerKeeper => exact Iff.rfl
      | getKeeper => exact Iff.rfl
      | getTask => exact Iff.rfl
  | closeLedger => exact Iff.rfl
  | transfer => exact Iff.rfl

/-! ## Runs -/

/-- Where overflow wraps, a step of a run schedules its task ahead exactly when the ledger plus
the interval fits. -/
theorem schedules_ahead_iff (host : Host Address TokenState) (tokens : TokenState)
    (ledgerSequence : U32) (actions : List (Action Address TokenState)) :
    ∀ r ∈ trace (step host .release) (deployed tokens ledgerSequence) actions,
      SchedulesAhead host .release r.1 r.2 ↔ ScheduleFits host .release r.1 r.2 := by
  rintro ⟨env, action⟩ hr
  obtain ⟨before, -, -, rfl⟩ := mem_trace_iff.1 hr
  exact schedulesAhead_iff (wellFormed_run host .release tokens ledgerSequence before) action

/-- At the ledger 100 a task is provisioned with an interval of 4294967286. It is scheduled for the
ledger 90, and another keeper executes it at once and has its designated keeper slashed. -/
theorem provisioned_in_grace :
    let env := run (step sampleHost .release) (deployed (sampleTokens 1000) 100)
      [.call sampleInvocation (.initializeContract 2 1 1),
        .call sampleInvocation (.registerKeeper 3 400),
        .call sampleInvocation (.registerKeeper 4 500)]
    let action : Action Nat (TokenLedger Nat) :=
      .call sampleInvocation (.provisionTask 5 4294967286 30 3)
    let id := sampleSha256 (taskSeed 0 100)
    let env' := step sampleHost .release env action
    (env'.tasks.lookup id).map (fun t => t.nextAllowedExecution.val) = some 90 ∧
      (((step sampleHost .release env' (.call sampleInvocation
        (.executeDripSplit id 4))).keepers.lookup 3).map fun k => k.stakeAmount.val) = some 380 ∧
      ¬ SchedulesAhead sampleHost .release env action := by
  intro env action id env'
  refine ⟨by decide +kernel, by decide +kernel, ?_⟩
  intro hahead
  -- the stored schedule is at the ledger 90, and the call came at the ledger 100
  obtain ⟨t, ht, hlt, -⟩ := hahead id (by decide +kernel)
  have hstored : (env'.tasks.lookup id).map (fun t => t.nextAllowedExecution.val) = some 90 := by
    decide +kernel
  rw [show env'.tasks.lookup id = some t from ht] at hstored
  have hnext : t.nextAllowedExecution.val = 90 := Option.some.inj hstored
  have hledger : env.ledgerSequence.val = 100 := by decide +kernel
  omega

/-- A task that is executed at its window, and scheduled ten ledgers later. -/
theorem schedules_ahead_sample :
    let id := sampleSha256 (taskSeed 0 0)
    let env := run (step sampleHost .release) (deployed (sampleTokens 1000) 0)
      [.call sampleInvocation (.initializeContract 2 1 1),
        .call sampleInvocation (.registerKeeper 3 400),
        .call sampleInvocation (.provisionTask 5 10 30 3), .closeLedger 10]
    SchedulesAhead sampleHost .release env (.call sampleInvocation (.executeDripSplit id 3)) := by
  intro id env
  refine (schedules_ahead_iff sampleHost (sampleTokens 1000) 0
    [.call sampleInvocation (.initializeContract 2 1 1),
      .call sampleInvocation (.registerKeeper 3 400),
      .call sampleInvocation (.provisionTask 5 10 30 3), .closeLedger 10,
      .call sampleInvocation (.executeDripSplit (sampleSha256 (taskSeed 0 0)) 3)]
    (env, .call sampleInvocation (.executeDripSplit id 3))
    (mem_trace_iff.2 ⟨_, [], rfl, rfl⟩)).2 ?_
  intro t ht _
  have hinterval : (env.tasks.lookup id).map (fun t => t.executionIntervalLedgers.val) =
      some 10 := by decide +kernel
  rw [ht] at hinterval
  have hten : t.executionIntervalLedgers.val = 10 := Option.some.inj hinterval
  have hledger : env.ledgerSequence.val = 10 := by decide +kernel
  have hmax : IntTy.u32.max = 4294967295 := rfl
  show env.ledgerSequence.val + t.executionIntervalLedgers.val ≤ IntTy.u32.max
  omega

end ChronosKeeper.Anchor
