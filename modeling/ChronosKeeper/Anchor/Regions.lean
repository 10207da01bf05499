import ChronosKeeper.Anchor.Execution

/-!
# The four regions

The window model behind the arbitration: `regionOf` places the current ledger relative to the
schedule of a task, and `Region.refusal` says whom a region turns away. `admitted` collects the
checks of an execution call that only look at the state before it, and every execution has passed
them (`Executes.admitted`).
-/

set_option autoImplicit false

namespace ChronosKeeper.Anchor

open ChronosKeeper.Foundations

/-- Where a ledger lies relative to the ledger a task is scheduled for. -/
inductive Region where
  | preWindow
  | designated
  | grace
  | postGrace
  deriving DecidableEq, Repr

def regionOf (scheduled current : Int) : Region :=
  if current < scheduled then .preWindow
  else if current = scheduled then .designated
  else if current ≤ scheduled + 50 then .grace
  else .postGrace

/-- The error with which a region turns a caller away, if it does. -/
def Region.refusal : Region → (isDesignated isRegistered : Bool) → Option ContractError
  | .preWindow, _, _ => some .tooEarlyToExecute
  | .designated, isDesignated, _ => if isDesignated then none else some .unauthorizedExecutor
  | .grace, isDesignated, isRegistered =>
      if isDesignated then some .gracePeriodActive
      else if isRegistered then none
      else some .callerNotSecondaryEligible
  | .postGrace, _, isRegistered => if isRegistered then none else some .unauthorizedExecutor

theorem regionOf_eq_designated {scheduled current : Int} (h : current = scheduled) :
    regionOf scheduled current = .designated := by
  unfold regionOf
  rw [if_neg (by omega), if_pos h]

theorem regionOf_eq_grace {scheduled current : Int} (hopen : scheduled < current)
    (hend : current ≤ scheduled + 50) : regionOf scheduled current = .grace := by
  unfold regionOf
  rw [if_neg (by omega), if_neg (by omega), if_pos hend]

theorem regionOf_eq_postGrace {scheduled current : Int} (h : scheduled + 50 < current) :
    regionOf scheduled current = .postGrace := by
  unfold regionOf
  rw [if_neg (by omega), if_neg (by omega), if_neg (by omega)]

variable {Address TokenState : Type}

/-- The task is in its grace period at the current ledger. -/
def InGrace (env : Env Address TokenState) (task : ExecutionTask Address) : Prop :=
  task.nextAllowedExecution.val < env.ledgerSequence.val ∧
    env.ledgerSequence.val ≤ task.nextAllowedExecution.val + 50

instance (env : Env Address TokenState) (task : ExecutionTask Address) :
    Decidable (InGrace env task) :=
  inferInstanceAs (Decidable (_ ∧ _))

theorem not_inGrace_of_eq {env : Env Address TokenState}
    {task : ExecutionTask Address}
    (h : env.ledgerSequence.val = task.nextAllowedExecution.val) : ¬ InGrace env task := by
  rintro ⟨hopen, -⟩
  omega

theorem not_inGrace_of_lt {env : Env Address TokenState}
    {task : ExecutionTask Address}
    (h : task.nextAllowedExecution.val + 50 < env.ledgerSequence.val) : ¬ InGrace env task := by
  rintro ⟨-, hgrace⟩
  omega

/-- The balance of the contract in a token. -/
def contractBalance (host : Host Address TokenState) (env : Env Address TokenState)
    (token : Address) : Int :=
  (host.token.balance env.tokens token host.currentContractAddress).val

variable [DecidableEq Address]

/-- The caller is authorised, the region does not turn it away, and the balance of the contract
after the call of the drip list covers the micro reward. -/
def admitted (host : Host Address TokenState) (inv : Invocation Address TokenState)
    (env : Env Address TokenState) (task : ExecutionTask Address) (caller : Address) : Bool :=
  inv.authorized caller &&
    ((regionOf task.nextAllowedExecution.val env.ledgerSequence.val).refusal
      (decide (caller = task.designatedKeeper)) (isRegistered env caller)).isNone &&
    match env.nativeToken, inv.distributeWaveSplits task.targetDripList env.tokens with
    | some token, some st =>
        decide (task.microRewardPerRun.val ≤
          (host.token.balance st token host.currentContractAddress).val)
    | _, _ => false

/-- Every execution was admitted. -/
theorem Executes.admitted {host : Host Address TokenState} {p : Profile}
    {inv : Invocation Address TokenState} {env env' : Env Address TokenState} {taskId : TaskId}
    {task : ExecutionTask Address} {caller : Address}
    (hexec : Executes host p inv env taskId task caller env')
    (hauth : inv.authorized caller = true) :
    Anchor.admitted host inv env task caller = true := by
  unfold Anchor.admitted
  rw [hauth, Bool.true_and, Bool.and_eq_true]
  cases hexec with
  | designated d hledger hcaller hd =>
      rw [hd.token, hd.drip, regionOf_eq_designated hledger, decide_eq_true hcaller]
      exact ⟨rfl, decide_eq_true hd.payment.covered⟩
  | grace k a treasury d st hopen hgrace hne hregistered _ _ _ _ hd =>
      -- The slash before the distribution changes neither the token nor the balances.
      have htoken : env.nativeToken = some d.token := hd.token
      have hdrip : inv.distributeWaveSplits task.targetDripList env.tokens = some d.dripTokens :=
        hd.drip
      rw [htoken, hdrip, regionOf_eq_grace hopen hgrace, decide_eq_false hne, hregistered]
      exact ⟨rfl, decide_eq_true hd.payment.covered⟩
  | postGrace elapsed d hgrace hregistered _ hd =>
      have htoken : env.nativeToken = some d.token := hd.token
      have hdrip : inv.distributeWaveSplits task.targetDripList env.tokens = some d.dripTokens :=
        hd.drip
      rw [htoken, hdrip, regionOf_eq_postGrace hgrace, hregistered]
      exact ⟨rfl, decide_eq_true hd.payment.covered⟩

end ChronosKeeper.Anchor
