import ChronosKeeper.Anchor.Registry

/-!
# Task registry

`tasks.rs`: provisioning, lookup and write-back of tasks. The identifier of a task is the hash of
an 8-byte seed, the task counter followed by the ledger sequence; the seed determines both
(`taskSeed_injective`), so with an injective hash tasks of different counters have different
identifiers.
-/

set_option autoImplicit false

namespace ChronosKeeper.Anchor

open ChronosKeeper.Foundations

/-! ## Seeds -/

/-- The low byte of `x >> shift`. -/
def beByte (x : U32) (shift : Nat) : UInt8 := UInt8.ofNat (x.val.toNat / 2 ^ shift)

/-- `counter.to_be_bytes()` followed by `current_ledger.to_be_bytes()`. -/
def taskSeed (counter currentLedger : U32) : BytesN 8 :=
  #v[beByte counter 24, beByte counter 16, beByte counter 8, beByte counter 0,
    beByte currentLedger 24, beByte currentLedger 16, beByte currentLedger 8,
    beByte currentLedger 0]

theorem toNat_beByte (x : U32) (shift : Nat) :
    (beByte x shift).toNat = x.val.toNat / 2 ^ shift % 256 := UInt8.toNat_ofNat'

/-- The bytes of a number below `2 ^ 32` are its digits in base 256. -/
theorem eq_sum_digits {n : Nat} (h : n < 2 ^ 32) :
    n = 2 ^ 24 * (n / 2 ^ 24 % 256) + 2 ^ 16 * (n / 2 ^ 16 % 256) + 2 ^ 8 * (n / 2 ^ 8 % 256) +
      n / 2 ^ 0 % 256 := by
  omega

/-- The four bytes of an unsigned 32-bit integer determine it. -/
theorem eq_of_beBytes {x y : U32} (h3 : beByte x 24 = beByte y 24) (h2 : beByte x 16 = beByte y 16)
    (h1 : beByte x 8 = beByte y 8) (h0 : beByte x 0 = beByte y 0) : x = y := by
  have hx := x.bounds
  have hy := y.bounds
  have hnat : x.val.toNat = y.val.toNat := by
    rw [eq_sum_digits (n := x.val.toNat) (by omega), eq_sum_digits (n := y.val.toNat) (by omega)]
    simp only [← toNat_beByte, h3, h2, h1, h0]
  apply MachineInt.ext
  omega

/-- A seed determines the counter and the ledger it was built from. -/
theorem taskSeed_injective {c c' l l' : U32} (h : taskSeed c l = taskSeed c' l') :
    c = c' ∧ l = l' := by
  have hlist := congrArg Vector.toList h
  simp only [taskSeed, Vector.toList_mk, List.cons.injEq, and_true] at hlist
  obtain ⟨c3, c2, c1, c0, l3, l2, l1, l0⟩ := hlist
  exact ⟨eq_of_beBytes c3 c2 c1 c0, eq_of_beBytes l3 l2 l1 l0⟩

/-! ## Entry points -/

variable {Address TokenState : Type}

/-- Creates a task and returns its identifier. -/
def provisionTask [DecidableEq Address] (host : Host Address TokenState) (p : Profile)
    (inv : Invocation Address TokenState) (targetDripList : Address)
    (executionIntervalLedgers : U32) (microRewardPerRun : I128) (designatedKeeper : Address) :
    AnchorM Address TokenState TaskId := do
  let env ← get
  let admin ← Tx.require env.admin (.error .unauthorizedCaller)
  requireAuth inv admin
  Tx.reject (executionIntervalLedgers = 0) (.error .invalidInterval)
  Tx.reject (microRewardPerRun ≤ 0) (.error .invalidReward)
  Tx.reject (isRegistered env designatedKeeper = false) (.error .keeperNotFound)
  Tx.reject (isEligible env designatedKeeper = false) (.error .ineligibleKeeper)
  -- The identifier is derived from the counter before it is advanced.
  let counter := env.taskCounter.getD 0
  let nextCounter ← arith (p.add counter 1)
  modify fun env => { env with taskCounter := some nextCounter }
  let currentLedger := env.ledgerSequence
  let taskId := host.sha256 (taskSeed counter currentLedger)
  -- The first execution is due one interval from now.
  let nextAllowedExecution ← arith (p.add currentLedger executionIntervalLedgers)
  let task : ExecutionTask Address :=
    { taskId, targetDripList, executionIntervalLedgers, nextAllowedExecution, microRewardPerRun,
      designatedKeeper }
  modify fun env => { env with tasks := env.tasks.insert taskId task }
  emitTaskProvisioned taskId targetDripList executionIntervalLedgers microRewardPerRun
    designatedKeeper
  return taskId

/-- The record of a provisioned task. -/
def getTask (taskId : TaskId) : AnchorM Address TokenState (ExecutionTask Address) := do
  let env ← get
  Tx.require (env.tasks.lookup taskId) (.error .taskNotFound)

/-- Writes a task back under the identifier found in it. -/
def updateTask (task : ExecutionTask Address) : AnchorM Address TokenState Unit :=
  modify fun env => { env with tasks := env.tasks.insert task.taskId task }

/-! ## Specifications -/

theorem outcome_getTask (taskId : TaskId) (env : Env Address TokenState) :
    (getTask taskId).outcome env =
      (Tx.require (env.tasks.lookup taskId) (.error .taskNotFound) :
        AnchorM Address TokenState (ExecutionTask Address)).outcome env :=
  Tx.outcome_get_bind

theorem outcome_getTask_of_some {taskId : TaskId} {env : Env Address TokenState}
    {task : ExecutionTask Address} (h : env.tasks.lookup taskId = some task) :
    (getTask taskId).outcome env = .ok (task, env) := by
  rw [outcome_getTask, h]
  rfl

theorem outcome_getTask_of_none {taskId : TaskId} {env : Env Address TokenState}
    (h : env.tasks.lookup taskId = none) :
    (getTask taskId).outcome env = .error (.error .taskNotFound) := by
  rw [outcome_getTask, h]
  rfl

theorem outcome_getTask_eq_ok {taskId : TaskId} {env env' : Env Address TokenState}
    {task : ExecutionTask Address} :
    (getTask taskId).outcome env = .ok (task, env') ↔
      env.tasks.lookup taskId = some task ∧ env' = env := by
  rw [outcome_getTask]
  exact Tx.outcome_require_eq_ok

theorem outcome_getTask_bind_eq_ok {β : Type} {taskId : TaskId} {env : Env Address TokenState}
    {f : ExecutionTask Address → AnchorM Address TokenState β} {r : β × Env Address TokenState} :
    (getTask taskId >>= f).outcome env = .ok r ↔
      ∃ task, env.tasks.lookup taskId = some task ∧ (f task).outcome env = .ok r := by
  unfold getTask
  rw [bind_assoc, Tx.outcome_get_bind]
  exact Tx.outcome_require_bind_eq_ok

theorem outcome_updateTask (task : ExecutionTask Address) (env : Env Address TokenState) :
    (updateTask task).outcome env =
      .ok ((), { env with tasks := env.tasks.insert task.taskId task }) := rfl

theorem outcome_updateTask_bind {β : Type} {task : ExecutionTask Address}
    {env : Env Address TokenState} {f : Unit → AnchorM Address TokenState β} :
    (updateTask task >>= f).outcome env =
      (f ()).outcome { env with tasks := env.tasks.insert task.taskId task } :=
  Tx.outcome_modify_bind

/-- The state after a task was provisioned. -/
def provisioned (env : Env Address TokenState) (nextCounter : U32)
    (task : ExecutionTask Address) : Env Address TokenState :=
  { env with
    taskCounter := some nextCounter
    tasks := env.tasks.insert task.taskId task
    events := env.events ++ [.taskProv task.taskId task.targetDripList
      task.executionIntervalLedgers task.microRewardPerRun task.designatedKeeper] }

/-- A provisioning call that succeeds: the record it writes and the facts it has checked. -/
structure IsProvisioning [DecidableEq Address] (host : Host Address TokenState) (p : Profile)
    (inv : Invocation Address TokenState) (env : Env Address TokenState)
    (nextCounter : U32) (task : ExecutionTask Address) : Prop where
  admin : ∃ admin, env.admin = some admin ∧ inv.authorized admin = true
  interval_ne_zero : task.executionIntervalLedgers ≠ 0
  microReward_pos : 0 < task.microRewardPerRun.val
  designated : ∃ k, env.keepers.lookup task.designatedKeeper = some k ∧ k.ineligible = false
  counter : p.add (env.taskCounter.getD 0) 1 = some nextCounter
  taskId : task.taskId = host.sha256 (taskSeed (env.taskCounter.getD 0) env.ledgerSequence)
  nextAllowedExecution : p.add env.ledgerSequence task.executionIntervalLedgers =
    some task.nextAllowedExecution

theorem outcome_provisionTask_eq_ok [DecidableEq Address] {host : Host Address TokenState}
    {p : Profile} {inv : Invocation Address TokenState} {targetDripList designatedKeeper : Address}
    {executionIntervalLedgers : U32} {microRewardPerRun : I128} {env env' : Env Address TokenState}
    {taskId : TaskId} :
    (provisionTask host p inv targetDripList executionIntervalLedgers microRewardPerRun
        designatedKeeper).outcome env = .ok (taskId, env') ↔
      ∃ nextCounter nextAllowedExecution,
        IsProvisioning host p inv env nextCounter
          { taskId, targetDripList, executionIntervalLedgers, nextAllowedExecution,
            microRewardPerRun, designatedKeeper } ∧
        env' = provisioned env nextCounter
          { taskId, targetDripList, executionIntervalLedgers, nextAllowedExecution,
            microRewardPerRun, designatedKeeper } := by
  unfold provisionTask
  simp only [Tx.outcome_get_bind, Tx.outcome_require_bind_eq_ok, outcome_requireAuth_bind_eq_ok,
    Tx.outcome_reject_bind_eq_ok, outcome_arith_bind_eq_ok, Tx.outcome_modify_bind,
    emitTaskProvisioned, outcome_publish_bind, Tx.outcome_pure]
  constructor
  · rintro ⟨admin, hadmin, hauth, hinterval, hreward, hreg, helig, nextCounter, hcounter, next,
      hnext, hret⟩
    cases hret
    have hmicro : 0 < microRewardPerRun.val := not_le.1 hreward
    refine ⟨nextCounter, next, ⟨⟨admin, hadmin, hauth⟩, hinterval, hmicro,
      isEligible_iff.1 (Bool.not_eq_false _ ▸ helig), hcounter, rfl, hnext⟩, rfl⟩
  · rintro ⟨nextCounter, next, h, rfl⟩
    obtain ⟨admin, hadmin, hauth⟩ := h.admin
    obtain ⟨k, hk, helig⟩ := h.designated
    have htaskId := h.taskId
    subst htaskId
    have hreg : ¬ isRegistered env designatedKeeper = false := by
      rw [isRegistered_iff.2 ⟨k, hk⟩]
      exact Bool.true_eq_false_eq_False
    have heligible : ¬ isEligible env designatedKeeper = false := by
      rw [isEligible_iff.2 ⟨k, hk, helig⟩]
      exact Bool.true_eq_false_eq_False
    exact ⟨admin, hadmin, hauth, h.interval_ne_zero, not_le.2 h.microReward_pos, hreg, heligible,
      nextCounter, h.counter, next, h.nextAllowedExecution, rfl⟩

end ChronosKeeper.Anchor
