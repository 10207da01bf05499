import ChronosKeeper.Anchor.Slashing
import ChronosKeeper.Anchor.Tasks

/-!
# Execution

`execution.rs`: the distribution shared by all successful executions and the four-region window
arbitration. `Executes` lists what a successful `executeDripSplit` has checked and the state it
leads to, one constructor for each region in which it can succeed;
`outcome_executeDripSplit_eq_ok` says that the list is exact.
-/

set_option autoImplicit false

namespace ChronosKeeper.Anchor

open ChronosKeeper.Foundations

variable {Address TokenState : Type}

/-- Pays an amount in the native token from the balance of the contract. -/
def payFromContract (host : Host Address TokenState) (recipient : Address) (amount : I128) :
    AnchorM Address TokenState Unit := do
  let env ← get
  let nativeTokenAddr ← Tx.require env.nativeToken (.expect "native token not initialised")
  let contractAddress := host.currentContractAddress
  -- The check reads the whole balance, the collateral of the keepers included.
  let balance := host.token.balance env.tokens nativeTokenAddr contractAddress
  Tx.reject (balance < amount) (.error .insufficientRewardBalance)
  let tokens ← Tx.require
    (host.token.transfer env.tokens nativeTokenAddr contractAddress recipient amount) .trap
  modify fun env => { env with tokens }

/-- `env.invoke_contract(target_drip_list, "distribute_wave_splits", [])`. -/
def invokeDripList (inv : Invocation Address TokenState) (targetDripList : Address) :
    AnchorM Address TokenState Unit := do
  let env ← get
  let tokens ← Tx.require (inv.distributeWaveSplits targetDripList env.tokens) .trap
  modify fun env => { env with tokens }

/-- Pays the secondary reward; a reward of zero is not transferred. -/
def paySecondaryReward (host : Host Address TokenState) (caller : Address)
    (secondaryReward : I128) : AnchorM Address TokenState Unit :=
  if secondaryReward > 0 then payFromContract host caller secondaryReward else pure ()

/-- The record of a keeper after an execution at the given ledger. -/
def executedKeeper (keeper : Keeper Address) (totalExecutions : U64) (currentLedger : U32) :
    Keeper Address :=
  { keeper with totalExecutions, lastExecutionLedger := currentLedger }

variable [DecidableEq Address]

/-- The execution logic shared by all regions. -/
def executeDistribution (host : Host Address TokenState) (p : Profile)
    (inv : Invocation Address TokenState) (task : ExecutionTask Address) (caller : Address)
    (isSecondary : Bool) : AnchorM Address TokenState Unit := do
  let env ← get
  let currentLedger := env.ledgerSequence
  invokeDripList inv task.targetDripList
  payFromContract host caller task.microRewardPerRun
  -- The next window is counted from this ledger, not from the one the task was due at.
  let nextAllowedExecution ← arith (p.add currentLedger task.executionIntervalLedgers)
  updateTask { task with nextAllowedExecution }
  let keeper ← getKeeper caller
  let totalExecutions ← arith (p.add keeper.totalExecutions 1)
  updateKeeper (executedKeeper keeper totalExecutions currentLedger)
  -- A secondary execution is published after its reward was paid.
  if isSecondary then pure ()
  else emitTaskExecuted task.taskId caller currentLedger task.microRewardPerRun

/-- Region 2, `L = T`: only the designated keeper executes. -/
def executeDesignated (host : Host Address TokenState) (p : Profile)
    (inv : Invocation Address TokenState) (task : ExecutionTask Address) (caller : Address) :
    AnchorM Address TokenState Unit := do
  Tx.reject (caller ≠ task.designatedKeeper) (.error .unauthorizedExecutor)
  executeDistribution host p inv task caller false

/-- Region 3, `T < L ≤ T + 50`: a secondary keeper executes and the designated keeper is
slashed. -/
def executeInGrace (host : Host Address TokenState) (p : Profile)
    (inv : Invocation Address TokenState) (taskId : TaskId) (task : ExecutionTask Address)
    (caller : Address) : AnchorM Address TokenState Unit := do
  Tx.reject (caller = task.designatedKeeper) (.error .gracePeriodActive)
  let env ← get
  Tx.reject (isRegistered env caller = false) (.error .callerNotSecondaryEligible)
  let currentLedger := env.ledgerSequence
  -- The slash comes first; a payment that fails later reverts it.
  let (slashAmount, secondaryReward) ← applySlash p task.designatedKeeper
  executeDistribution host p inv task caller true
  paySecondaryReward host caller secondaryReward
  emitTaskExecutedBySecondary taskId caller task.designatedKeeper currentLedger slashAmount
    secondaryReward task.microRewardPerRun

/-- Region 4, `L > T + 50`: any registered keeper executes. -/
def executePostGrace (host : Host Address TokenState) (p : Profile)
    (inv : Invocation Address TokenState) (taskId : TaskId) (task : ExecutionTask Address)
    (caller : Address) (ledgersElapsed : U32) : AnchorM Address TokenState Unit := do
  let env ← get
  Tx.reject (isRegistered env caller = false) (.error .unauthorizedExecutor)
  emitMissedExecution taskId ledgersElapsed
  executeDistribution host p inv task caller false

/-- Executes the distribution of a task under the window arbitration rules. -/
def executeDripSplit (host : Host Address TokenState) (p : Profile)
    (inv : Invocation Address TokenState) (taskId : TaskId) (caller : Address) :
    AnchorM Address TokenState Unit := do
  let task ← getTask taskId
  requireAuth inv caller
  let env ← get
  let currentLedger := env.ledgerSequence
  -- Region 1: before the window.
  Tx.reject (currentLedger < task.nextAllowedExecution) (.error .tooEarlyToExecute)
  let ledgersElapsed ← arith (p.sub currentLedger task.nextAllowedExecution)
  if ledgersElapsed = 0 then executeDesignated host p inv task caller
  else if ledgersElapsed ≤ 50 then executeInGrace host p inv taskId task caller
  else executePostGrace host p inv taskId task caller ledgersElapsed

/-! ## Payments -/

section Payments

omit [DecidableEq Address]

/-- What a payment from the contract in the token `token` does to the balances. -/
structure IsPayment (host : Host Address TokenState) (token : Address) (st : TokenState)
    (recipient : Address) (amount : I128) (st' : TokenState) : Prop where
  covered : amount.val ≤ (host.token.balance st token host.currentContractAddress).val
  transfer : host.token.transfer st token host.currentContractAddress recipient amount = some st'

theorem outcome_payFromContract_eq_ok {host : Host Address TokenState} {recipient : Address}
    {amount : I128} {env env' : Env Address TokenState} {u : Unit} :
    (payFromContract host recipient amount).outcome env = .ok (u, env') ↔
      ∃ token st, env.nativeToken = some token ∧
        IsPayment host token env.tokens recipient amount st ∧ env' = { env with tokens := st } := by
  unfold payFromContract
  simp only [Tx.outcome_get_bind, Tx.outcome_require_bind_eq_ok, Tx.outcome_reject_bind_eq_ok,
    Tx.outcome_modify]
  constructor
  · rintro ⟨token, htoken, hbal, st, hst, hset⟩
    cases hset
    exact ⟨token, st, htoken, ⟨not_lt.1 hbal, hst⟩, rfl⟩
  · rintro ⟨token, st, htoken, hpay, rfl⟩
    exact ⟨token, htoken, not_lt.2 hpay.covered, st, hpay.transfer, rfl⟩

theorem outcome_payFromContract_bind_eq_ok {β : Type} {host : Host Address TokenState}
    {recipient : Address} {amount : I128} {env : Env Address TokenState}
    {f : Unit → AnchorM Address TokenState β} {r : β × Env Address TokenState} :
    (payFromContract host recipient amount >>= f).outcome env = .ok r ↔
      ∃ token st, env.nativeToken = some token ∧ IsPayment host token env.tokens recipient amount st ∧
        (f ()).outcome { env with tokens := st } = .ok r := by
  rw [Tx.outcome_bind_eq_ok]
  constructor
  · rintro ⟨_, _, hpaid, hf⟩
    obtain ⟨token, st, htoken, hpay, rfl⟩ := outcome_payFromContract_eq_ok.1 hpaid
    exact ⟨token, st, htoken, hpay, hf⟩
  · rintro ⟨token, st, htoken, hpay, hf⟩
    exact ⟨(), _, outcome_payFromContract_eq_ok.2 ⟨token, st, htoken, hpay, rfl⟩, hf⟩

theorem outcome_payFromContract_of_insufficient {host : Host Address TokenState}
    {recipient token : Address} {amount : I128} {env : Env Address TokenState}
    (htoken : env.nativeToken = some token)
    (h : (host.token.balance env.tokens token host.currentContractAddress).val < amount.val) :
    (payFromContract host recipient amount).outcome env =
      .error (.error .insufficientRewardBalance) := by
  unfold payFromContract
  rw [Tx.outcome_get_bind,
    Tx.outcome_bind_of_ok (Tx.outcome_require_eq_ok.2 ⟨htoken, rfl⟩)]
  exact Tx.outcome_bind_of_error (Tx.outcome_reject_of_pos h _ _)

theorem outcome_payFromContract_of_covered {host : Host Address TokenState}
    {recipient token : Address} {amount : I128} {env : Env Address TokenState}
    (htoken : env.nativeToken = some token) (h0 : 0 ≤ amount.val)
    (h : amount.val ≤ (host.token.balance env.tokens token host.currentContractAddress).val) :
    ∃ st, IsPayment host token env.tokens recipient amount st ∧
      (payFromContract host recipient amount).outcome env = .ok ((), { env with tokens := st }) := by
  obtain ⟨st, hst⟩ : ∃ st, host.token.transfer env.tokens token host.currentContractAddress
    recipient amount = some st := host.token.transfer_covered h0 h
  exact ⟨st, ⟨h, hst⟩, outcome_payFromContract_eq_ok.2 ⟨token, st, htoken, ⟨h, hst⟩, rfl⟩⟩

theorem outcome_invokeDripList_eq_ok {inv : Invocation Address TokenState}
    {targetDripList : Address} {env env' : Env Address TokenState} {u : Unit} :
    (invokeDripList inv targetDripList).outcome env = .ok (u, env') ↔
      ∃ st, inv.distributeWaveSplits targetDripList env.tokens = some st ∧
        env' = { env with tokens := st } := by
  unfold invokeDripList
  simp only [Tx.outcome_get_bind, Tx.outcome_require_bind_eq_ok, Tx.outcome_modify]
  constructor
  · rintro ⟨st, hst, hset⟩
    cases hset
    exact ⟨st, hst, rfl⟩
  · rintro ⟨st, hst, rfl⟩
    exact ⟨st, hst, rfl⟩

theorem outcome_invokeDripList_bind_eq_ok {β : Type} {inv : Invocation Address TokenState}
    {targetDripList : Address} {env : Env Address TokenState}
    {f : Unit → AnchorM Address TokenState β} {r : β × Env Address TokenState} :
    (invokeDripList inv targetDripList >>= f).outcome env = .ok r ↔
      ∃ st, inv.distributeWaveSplits targetDripList env.tokens = some st ∧
        (f ()).outcome { env with tokens := st } = .ok r := by
  rw [Tx.outcome_bind_eq_ok]
  constructor
  · rintro ⟨_, _, hdrip, hf⟩
    obtain ⟨st, hst, rfl⟩ := outcome_invokeDripList_eq_ok.1 hdrip
    exact ⟨st, hst, hf⟩
  · rintro ⟨st, hst, hf⟩
    exact ⟨(), _, outcome_invokeDripList_eq_ok.2 ⟨st, hst, rfl⟩, hf⟩

end Payments

/-! ## Distribution -/

/-- The values a successful distribution computes on its way. -/
structure Distribution (Address TokenState : Type) where
  token : Address
  dripTokens : TokenState
  paidTokens : TokenState
  nextAllowedExecution : U32
  keeper : Keeper Address
  totalExecutions : U64

/-- The state after a distribution. -/
def distributed (env : Env Address TokenState) (task : ExecutionTask Address) (caller : Address)
    (isSecondary : Bool) (d : Distribution Address TokenState) : Env Address TokenState :=
  { env with
    tokens := d.paidTokens
    tasks := env.tasks.insert task.taskId
      { task with nextAllowedExecution := d.nextAllowedExecution }
    keepers := env.keepers.insert d.keeper.address
      (executedKeeper d.keeper d.totalExecutions env.ledgerSequence)
    events := env.events ++
      if isSecondary then []
      else [.taskExec task.taskId caller env.ledgerSequence task.microRewardPerRun] }

/-- What a successful distribution has checked. -/
structure IsDistribution (host : Host Address TokenState) (p : Profile)
    (inv : Invocation Address TokenState) (env : Env Address TokenState)
    (task : ExecutionTask Address) (caller : Address) (d : Distribution Address TokenState) :
    Prop where
  drip : inv.distributeWaveSplits task.targetDripList env.tokens = some d.dripTokens
  token : env.nativeToken = some d.token
  payment : IsPayment host d.token d.dripTokens caller task.microRewardPerRun d.paidTokens
  nextAllowedExecution :
    p.add env.ledgerSequence task.executionIntervalLedgers = some d.nextAllowedExecution
  keeper : env.keepers.lookup caller = some d.keeper
  totalExecutions : p.add d.keeper.totalExecutions 1 = some d.totalExecutions

theorem outcome_executeDistribution_eq_ok {host : Host Address TokenState} {p : Profile}
    {inv : Invocation Address TokenState} {task : ExecutionTask Address} {caller : Address}
    {isSecondary : Bool} {env env' : Env Address TokenState} {u : Unit} :
    (executeDistribution host p inv task caller isSecondary).outcome env = .ok (u, env') ↔
      ∃ d, IsDistribution host p inv env task caller d ∧
        env' = distributed env task caller isSecondary d := by
  unfold executeDistribution
  simp only [Tx.outcome_get_bind, outcome_invokeDripList_bind_eq_ok,
    outcome_payFromContract_bind_eq_ok, outcome_arith_bind_eq_ok, outcome_updateTask_bind,
    outcome_getKeeper_bind_eq_ok, outcome_updateKeeper_bind]
  -- The two kinds of execution differ in the last event only.
  have hevent : ∀ d : Distribution Address TokenState,
      ((if isSecondary then pure () else
          emitTaskExecuted task.taskId caller env.ledgerSequence task.microRewardPerRun :
          AnchorM Address TokenState Unit).outcome
        { env with
          tokens := d.paidTokens
          tasks := env.tasks.insert task.taskId
            { task with nextAllowedExecution := d.nextAllowedExecution }
          keepers := env.keepers.insert d.keeper.address
            (executedKeeper d.keeper d.totalExecutions env.ledgerSequence) }) =
        .ok ((), distributed env task caller isSecondary d) := by
    intro d
    cases isSecondary with
    | true =>
        simp only [distributed, if_true, List.append_nil]
        rfl
    | false => rfl
  constructor
  · rintro ⟨dripTokens, hdrip, token, paidTokens, htoken, hpay, next, hnext, keeper, hkeeper, total,
      htotal, h⟩
    have hd := hevent ⟨token, dripTokens, paidTokens, next, keeper, total⟩
    refine ⟨⟨token, dripTokens, paidTokens, next, keeper, total⟩,
      ⟨hdrip, htoken, hpay, hnext, hkeeper, htotal⟩, ?_⟩
    cases h.symm.trans hd
    rfl
  · rintro ⟨d, h, rfl⟩
    exact ⟨d.dripTokens, h.drip, d.token, d.paidTokens, h.token, h.payment,
      d.nextAllowedExecution, h.nextAllowedExecution, d.keeper, h.keeper, d.totalExecutions,
      h.totalExecutions, hevent d⟩

/-! ## The regions -/

/-- The state after the `missed` event of the post-grace region. -/
def missed (env : Env Address TokenState) (taskId : TaskId) (ledgersElapsed : U32) :
    Env Address TokenState :=
  { env with events := env.events ++ [.missed taskId ledgersElapsed] }

/-- The state after the secondary reward was paid and the secondary execution was published. -/
def secondaryPaid (env : Env Address TokenState) (taskId : TaskId) (task : ExecutionTask Address)
    (caller : Address) (a : SlashAmounts) (st : TokenState) : Env Address TokenState :=
  { env with
    tokens := st
    events := env.events ++ [.taskSec taskId caller task.designatedKeeper env.ledgerSequence
      a.slashAmount a.secondaryReward task.microRewardPerRun] }

/-- The balances after the secondary reward `reward` was paid. -/
def IsSecondaryPayment (host : Host Address TokenState) (token : Address) (st : TokenState)
    (recipient : Address) (reward : I128) (st' : TokenState) : Prop :=
  if 0 < reward.val then IsPayment host token st recipient reward st' else st' = st

/-- The successful executions of the stored task `task`, by region. -/
inductive Executes (host : Host Address TokenState) (p : Profile)
    (inv : Invocation Address TokenState) (env : Env Address TokenState) (taskId : TaskId)
    (task : ExecutionTask Address) (caller : Address) : Env Address TokenState → Prop where
  | designated (d : Distribution Address TokenState)
      (hledger : env.ledgerSequence.val = task.nextAllowedExecution.val)
      (hcaller : caller = task.designatedKeeper)
      (hdist : IsDistribution host p inv env task caller d) :
      Executes host p inv env taskId task caller (distributed env task caller false d)
  | grace (k : Keeper Address) (a : SlashAmounts) (treasury : I128)
      (d : Distribution Address TokenState) (st : TokenState)
      (hopen : task.nextAllowedExecution.val < env.ledgerSequence.val)
      (hgrace : env.ledgerSequence.val ≤ task.nextAllowedExecution.val + 50)
      (hcaller : caller ≠ task.designatedKeeper)
      (hregistered : isRegistered env caller = true)
      (hkeeper : env.keepers.lookup task.designatedKeeper = some k)
      (hstake : k.stakeAmount ≠ 0)
      (hformula : slashFormula p k.stakeAmount = some a)
      (htreasury : p.add (env.treasuryBalance.getD 0) a.treasuryPortion = some treasury)
      (hdist : IsDistribution host p inv (slashed env task.designatedKeeper k a treasury) task
        caller d)
      (hreward : IsSecondaryPayment host d.token d.paidTokens caller a.secondaryReward st) :
      Executes host p inv env taskId task caller
        (secondaryPaid
          (distributed (slashed env task.designatedKeeper k a treasury) task caller true d)
          taskId task caller a st)
  | postGrace (elapsed : U32) (d : Distribution Address TokenState)
      (hgrace : task.nextAllowedExecution.val + 50 < env.ledgerSequence.val)
      (hregistered : isRegistered env caller = true)
      (helapsed : elapsed.val = env.ledgerSequence.val - task.nextAllowedExecution.val)
      (hdist : IsDistribution host p inv (missed env taskId elapsed) task caller d) :
      Executes host p inv env taskId task caller
        (distributed (missed env taskId elapsed) task caller false d)

theorem outcome_executeDesignated_eq_ok {host : Host Address TokenState} {p : Profile}
    {inv : Invocation Address TokenState} {task : ExecutionTask Address} {caller : Address}
    {env env' : Env Address TokenState} {u : Unit} :
    (executeDesignated host p inv task caller).outcome env = .ok (u, env') ↔
      caller = task.designatedKeeper ∧ ∃ d, IsDistribution host p inv env task caller d ∧
        env' = distributed env task caller false d := by
  unfold executeDesignated
  rw [Tx.outcome_reject_bind_eq_ok, outcome_executeDistribution_eq_ok, ne_eq, not_not]

omit [DecidableEq Address] in
theorem outcome_paySecondaryReward_eq_ok {host : Host Address TokenState} {caller token : Address}
    {reward : I128} {env env' : Env Address TokenState} {u : Unit}
    (htoken : env.nativeToken = some token) :
    (paySecondaryReward host caller reward).outcome env = .ok (u, env') ↔
      ∃ st, IsSecondaryPayment host token env.tokens caller reward st ∧
        env' = { env with tokens := st } := by
  unfold paySecondaryReward IsSecondaryPayment
  by_cases hpos : reward > 0
  · have hval : 0 < reward.val := hpos
    simp only [if_pos hpos, if_pos hval, outcome_payFromContract_eq_ok]
    constructor
    · rintro ⟨token', st, htoken', hpay, rfl⟩
      rw [htoken] at htoken'
      cases htoken'
      exact ⟨st, hpay, rfl⟩
    · rintro ⟨st, hpay, rfl⟩
      exact ⟨token, st, htoken, hpay, rfl⟩
  · have hval : ¬ 0 < reward.val := hpos
    simp only [if_neg hpos, if_neg hval]
    constructor
    · intro h
      cases h
      exact ⟨env.tokens, rfl, rfl⟩
    · rintro ⟨_, rfl, rfl⟩
      rfl

theorem outcome_executeInGrace_eq_ok {host : Host Address TokenState} {p : Profile}
    {inv : Invocation Address TokenState} {taskId : TaskId} {task : ExecutionTask Address}
    {caller : Address} {env env' : Env Address TokenState} {u : Unit} :
    (executeInGrace host p inv taskId task caller).outcome env = .ok (u, env') ↔
      caller ≠ task.designatedKeeper ∧ isRegistered env caller = true ∧
      ∃ k a treasury, env.keepers.lookup task.designatedKeeper = some k ∧ k.stakeAmount ≠ 0 ∧
        slashFormula p k.stakeAmount = some a ∧
        p.add (env.treasuryBalance.getD 0) a.treasuryPortion = some treasury ∧
        ∃ d, IsDistribution host p inv (slashed env task.designatedKeeper k a treasury) task
            caller d ∧
          ∃ st, IsSecondaryPayment host d.token d.paidTokens caller a.secondaryReward st ∧
            env' = secondaryPaid
              (distributed (slashed env task.designatedKeeper k a treasury) task caller true d)
              taskId task caller a st := by
  unfold executeInGrace
  rw [Tx.outcome_reject_bind_eq_ok, Tx.outcome_get_bind, Tx.outcome_reject_bind_eq_ok,
    Bool.not_eq_false]
  simp only [Tx.outcome_bind_eq_ok, outcome_applySlash_eq_ok, outcome_executeDistribution_eq_ok,
    emitTaskExecutedBySecondary, outcome_publish]
  constructor
  · rintro ⟨hcaller, hreg, _, _, ⟨k, a, treasury, hk, hz, ha, ht, rfl, rfl⟩, _, _, ⟨d, hd, rfl⟩,
      _, _, hpay, hev⟩
    have htoken : (distributed (slashed _ task.designatedKeeper k a treasury) task caller true
        d).nativeToken = some d.token := hd.token
    obtain ⟨st, hst, rfl⟩ := (outcome_paySecondaryReward_eq_ok htoken).1 hpay
    cases hev
    exact ⟨hcaller, hreg, k, a, treasury, hk, hz, ha, ht, d, hd, st, hst, rfl⟩
  · rintro ⟨hcaller, hreg, k, a, treasury, hk, hz, ha, ht, d, hd, st, hst, rfl⟩
    refine ⟨hcaller, hreg, _, _, ⟨k, a, treasury, hk, hz, ha, ht, rfl, rfl⟩, (), _, ⟨d, hd, rfl⟩, (),
      { distributed (slashed env task.designatedKeeper k a treasury) task caller true d with
        tokens := st }, ?_, rfl⟩
    have htoken : (distributed (slashed env task.designatedKeeper k a treasury) task caller true
        d).nativeToken = some d.token := hd.token
    exact (outcome_paySecondaryReward_eq_ok htoken).2 ⟨st, hst, rfl⟩

theorem outcome_executePostGrace_eq_ok {host : Host Address TokenState} {p : Profile}
    {inv : Invocation Address TokenState} {taskId : TaskId} {task : ExecutionTask Address}
    {caller : Address} {elapsed : U32} {env env' : Env Address TokenState} {u : Unit} :
    (executePostGrace host p inv taskId task caller elapsed).outcome env = .ok (u, env') ↔
      isRegistered env caller = true ∧
        ∃ d, IsDistribution host p inv (missed env taskId elapsed) task caller d ∧
          env' = distributed (missed env taskId elapsed) task caller false d := by
  unfold executePostGrace
  rw [Tx.outcome_get_bind, Tx.outcome_reject_bind_eq_ok, Bool.not_eq_false]
  unfold emitMissedExecution
  rw [outcome_publish_bind]
  exact and_congr_right fun _ => outcome_executeDistribution_eq_ok

/-! ## The entry point -/

/-- At or after the execution ledger, the elapsed ledgers are computed exactly. -/
theorem sub_of_le (p : Profile) {currentLedger next : U32} (h : next.val ≤ currentLedger.val) :
    ∃ elapsed, p.sub currentLedger next = some elapsed ∧
      elapsed.val = currentLedger.val - next.val := by
  have hr : IntTy.u32.InRange (currentLedger.val - next.val) := by
    have h1 := currentLedger.bounds
    have h2 := next.bounds
    rw [IntTy.inRange_u32]
    omega
  exact ⟨⟨_, hr⟩, p.fit_of_inRange hr, rfl⟩

/-- A call on a stored task by an authorised caller, after the pre-window check. -/
theorem outcome_executeDripSplit_of_le (host : Host Address TokenState) (p : Profile)
    {inv : Invocation Address TokenState} {taskId : TaskId} {caller : Address}
    {env : Env Address TokenState} {task : ExecutionTask Address}
    (htask : env.tasks.lookup taskId = some task) (hauth : inv.authorized caller = true)
    (hle : task.nextAllowedExecution.val ≤ env.ledgerSequence.val) :
    ∃ elapsed, elapsed.val = env.ledgerSequence.val - task.nextAllowedExecution.val ∧
      (executeDripSplit host p inv taskId caller).outcome env =
        (if elapsed = 0 then executeDesignated host p inv task caller
          else if elapsed ≤ 50 then executeInGrace host p inv taskId task caller
          else executePostGrace host p inv taskId task caller elapsed).outcome env := by
  obtain ⟨elapsed, hsub, hval⟩ := sub_of_le p hle
  refine ⟨elapsed, hval, ?_⟩
  have hnot : ¬ env.ledgerSequence < task.nextAllowedExecution := not_lt.2 hle
  unfold executeDripSplit
  rw [Tx.outcome_bind_of_ok (outcome_getTask_of_some htask),
    Tx.outcome_bind_of_ok (outcome_requireAuth hauth env),
    Tx.outcome_get_bind,
    Tx.outcome_bind_of_ok (Tx.outcome_reject_of_neg hnot _ env),
    Tx.outcome_bind_of_ok (outcome_arith_eq_ok.2 ⟨hsub, rfl⟩)]

/-- What a successful call has passed before it reaches a region. -/
theorem pre_of_outcome_executeDripSplit {host : Host Address TokenState} {p : Profile}
    {inv : Invocation Address TokenState} {taskId : TaskId} {caller : Address}
    {env env' : Env Address TokenState} {u : Unit}
    (h : (executeDripSplit host p inv taskId caller).outcome env = .ok (u, env')) :
    ∃ task, env.tasks.lookup taskId = some task ∧ inv.authorized caller = true ∧
      task.nextAllowedExecution.val ≤ env.ledgerSequence.val := by
  unfold executeDripSplit at h
  simp only [outcome_getTask_bind_eq_ok, outcome_requireAuth_bind_eq_ok, Tx.outcome_get_bind,
    Tx.outcome_reject_bind_eq_ok] at h
  obtain ⟨task, htask, hauth, hle, -⟩ := h
  exact ⟨task, htask, hauth, not_lt.1 hle⟩

/-- A call succeeds exactly in the ways `Executes` lists. -/
theorem outcome_executeDripSplit_eq_ok {host : Host Address TokenState} {p : Profile}
    {inv : Invocation Address TokenState} {taskId : TaskId} {caller : Address}
    {env env' : Env Address TokenState} {u : Unit} :
    (executeDripSplit host p inv taskId caller).outcome env = .ok (u, env') ↔
      ∃ task, env.tasks.lookup taskId = some task ∧ inv.authorized caller = true ∧
        Executes host p inv env taskId task caller env' := by
  have hfifty : (50 : U32).val = 50 := rfl
  constructor
  · intro h
    obtain ⟨task, htask, hauth, hle⟩ := pre_of_outcome_executeDripSplit h
    refine ⟨task, htask, hauth, ?_⟩
    obtain ⟨elapsed, hval, heq⟩ := outcome_executeDripSplit_of_le host p htask hauth hle
    rw [heq] at h
    -- Each branch of the code is a constructor of `Executes`.
    split at h
    · rename_i hzero
      obtain ⟨hcaller, d, hd, rfl⟩ := outcome_executeDesignated_eq_ok.1 h
      have hz : elapsed.val = 0 := MachineInt.eq_iff.1 hzero
      exact .designated d (by omega) hcaller hd
    · rename_i hzero
      have hpos := MachineInt.val_ne hzero
      have hnat : (0 : U32).val = 0 := rfl
      split at h
      · rename_i hle50
        rw [MachineInt.le_iff] at hle50
        obtain ⟨hcaller, hreg, k, a, treasury, hk, hz, ha, ht, d, hd, st, hst, rfl⟩ :=
          outcome_executeInGrace_eq_ok.1 h
        exact .grace k a treasury d st (by omega) (by omega) hcaller hreg hk hz ha ht hd hst
      · rename_i hgt50
        rw [MachineInt.le_iff] at hgt50
        obtain ⟨hreg, d, hd, rfl⟩ := outcome_executePostGrace_eq_ok.1 h
        exact .postGrace elapsed d (by omega) hreg hval hd
  · rintro ⟨task, htask, hauth, h⟩
    have hle : task.nextAllowedExecution.val ≤ env.ledgerSequence.val := by
      cases h with
      | designated d hledger => omega
      | grace k a treasury d st hopen => omega
      | postGrace elapsed d hgrace => omega
    obtain ⟨elapsed, hval, heq⟩ := outcome_executeDripSplit_of_le host p htask hauth hle
    rw [heq]
    have hzero : elapsed = 0 ↔ elapsed.val = 0 := MachineInt.eq_iff
    have hle50 : elapsed ≤ 50 ↔ elapsed.val ≤ 50 := Iff.rfl
    -- Conversely, the ledger of each constructor fixes the branch that is taken.
    cases h with
    | designated d hledger hcaller hd =>
        rw [if_pos (hzero.2 (by omega))]
        exact outcome_executeDesignated_eq_ok.2 ⟨hcaller, d, hd, rfl⟩
    | grace k a treasury d st hopen hgrace hcaller hreg hk hz ha ht hd hst =>
        rw [if_neg (fun e => by have := hzero.1 e; omega), if_pos (hle50.2 (by omega))]
        exact outcome_executeInGrace_eq_ok.2
          ⟨hcaller, hreg, k, a, treasury, hk, hz, ha, ht, d, hd, st, hst, rfl⟩
    | postGrace elapsed' d hgrace hreg helapsed hd =>
        have hsame : elapsed = elapsed' := MachineInt.ext (by omega)
        subst hsame
        rw [if_neg (fun e => by have := hzero.1 e; omega),
          if_neg (fun e => by have := hle50.1 e; omega)]
        exact outcome_executePostGrace_eq_ok.2 ⟨hreg, d, hd, rfl⟩

end ChronosKeeper.Anchor
