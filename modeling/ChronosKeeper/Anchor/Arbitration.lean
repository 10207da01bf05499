import ChronosKeeper.Anchor.Regions
import ChronosKeeper.Foundations.Interpretation

/-!
# The arbitration of a call

An execution call on a stored task by an authorised caller first goes through the window
arbitration: the region refuses it with its own error (`result_of_refusal`), or the call goes on
with the operations of an execution. These are written as a program (`executionSteps`), of which
the code of a passing call is the interpretation (`outcome_eq_interp`), so one can speak about each
of them and about the state it is performed in. The errors of the arbitration are returned by
nothing else (`acceptsCaller_iff`).
-/

set_option autoImplicit false

namespace ChronosKeeper.Anchor

open ChronosKeeper.Foundations

open Program (request)

variable {Address TokenState : Type} [DecidableEq Address]

/-- The window arbitration lets the caller execute the task at the current ledger. -/
def PassesArbitration (env : Env Address TokenState) (task : ExecutionTask Address)
    (caller : Address) : Prop :=
  (regionOf task.nextAllowedExecution.val env.ledgerSequence.val).refusal
    (decide (caller = task.designatedKeeper)) (isRegistered env caller) = none

instance (env : Env Address TokenState) (task : ExecutionTask Address) (caller : Address) :
    Decidable (PassesArbitration env task caller) :=
  inferInstanceAs (Decidable (_ = none))

/-! ## The operations of an execution -/

/-- The operations of an execution past the arbitration. -/
inductive Operation (Address : Type) where
  | sequence
  | elapsed (currentLedger : U32)
  | slash
  | drip
  | pay (amount : I128)
  | next (currentLedger : U32)
  | schedule (nextAllowedExecution : U32)
  | lookup
  | count (totalExecutions : U64)
  | credit (keeper : Keeper Address)
  | publish (e : Event Address)

/-- What an operation returns. -/
@[reducible] def Operation.Reply : Operation Address → Type
  | .sequence => U32
  | .elapsed _ => U32
  | .slash => I128 × I128
  | .drip => Unit
  | .pay _ => Unit
  | .next _ => U32
  | .schedule _ => Unit
  | .lookup => Keeper Address
  | .count _ => U64
  | .credit _ => Unit
  | .publish _ => Unit

/-- The code of an operation, in an execution of the task by the caller. -/
def Operation.code (host : Host Address TokenState) (p : Profile)
    (inv : Invocation Address TokenState) (task : ExecutionTask Address) (caller : Address) :
    (op : Operation Address) → AnchorM Address TokenState op.Reply
  | .sequence => do
      let env ← get
      return env.ledgerSequence
  | .elapsed currentLedger => arith (p.sub currentLedger task.nextAllowedExecution)
  | .slash => applySlash p task.designatedKeeper
  | .drip => invokeDripList inv task.targetDripList
  | .pay amount => payFromContract host caller amount
  | .next currentLedger => arith (p.add currentLedger task.executionIntervalLedgers)
  | .schedule nextAllowedExecution => updateTask { task with nextAllowedExecution }
  | .lookup => getKeeper caller
  | .count totalExecutions => arith (p.add totalExecutions 1)
  | .credit keeper => updateKeeper keeper
  | .publish e => Anchor.publish e

abbrev OperationM (Address : Type) := Program (Operation Address) Operation.Reply

/-- The operations of a distribution. -/
def distributionSteps (task : ExecutionTask Address) (caller : Address) (isSecondary : Bool) :
    OperationM Address Unit := do
  let currentLedger ← request Operation.sequence
  request Operation.drip
  request (Operation.pay task.microRewardPerRun)
  let nextAllowedExecution ← request (Operation.next currentLedger)
  request (Operation.schedule nextAllowedExecution)
  let keeper ← request Operation.lookup
  let totalExecutions ← request (Operation.count keeper.totalExecutions)
  request (Operation.credit (executedKeeper keeper totalExecutions currentLedger))
  if isSecondary then pure ()
  else request (Operation.publish
    (.taskExec task.taskId caller currentLedger task.microRewardPerRun))

def rewardSteps (secondaryReward : I128) : OperationM Address Unit :=
  if secondaryReward > 0 then request (Operation.pay secondaryReward) else pure ()

/-- The operations of an execution call that the arbitration lets pass. -/
def executionSteps (taskId : TaskId) (task : ExecutionTask Address) (caller : Address) :
    OperationM Address Unit := do
  let currentLedger ← request Operation.sequence
  let ledgersElapsed ← request (Operation.elapsed currentLedger)
  if ledgersElapsed = 0 then distributionSteps task caller false
  else if ledgersElapsed ≤ 50 then do
    let (slashAmount, secondaryReward) ← request Operation.slash
    distributionSteps task caller true
    rewardSteps secondaryReward
    request (Operation.publish (.taskSec taskId caller task.designatedKeeper currentLedger
      slashAmount secondaryReward task.microRewardPerRun))
  else do
    request (Operation.publish (.missed taskId ledgersElapsed))
    distributionSteps task caller false

variable {host : Host Address TokenState} {p : Profile} {inv : Invocation Address TokenState}
  {env : Env Address TokenState} {taskId : TaskId} {task : ExecutionTask Address}
  {caller : Address}

/-- What the arbitration has checked about a caller whom it lets pass, by the branches of the
code. -/
theorem PassesArbitration.cases (h : PassesArbitration env task caller) :
    task.nextAllowedExecution.val ≤ env.ledgerSequence.val ∧
      ∀ elapsed : U32, elapsed.val = env.ledgerSequence.val - task.nextAllowedExecution.val →
        (elapsed = 0 ∧ caller = task.designatedKeeper) ∨
        (elapsed ≠ 0 ∧ elapsed ≤ 50 ∧ caller ≠ task.designatedKeeper ∧
          isRegistered env caller = true) ∨
        (elapsed ≠ 0 ∧ ¬ elapsed ≤ 50 ∧ isRegistered env caller = true) := by
  unfold PassesArbitration at h
  have hle : task.nextAllowedExecution.val ≤ env.ledgerSequence.val := by
    by_contra hlt
    unfold regionOf at h
    rw [if_pos (not_le.1 hlt)] at h
    cases h
  refine ⟨hle, fun elapsed hval => ?_⟩
  have hzero : elapsed = 0 ↔ elapsed.val = 0 := MachineInt.eq_iff
  have hfifty : elapsed ≤ 50 ↔ elapsed.val ≤ 50 := Iff.rfl
  by_cases h0 : elapsed = 0
  · have hledger := hzero.1 h0
    rw [regionOf_eq_designated (by omega)] at h
    refine Or.inl ⟨h0, ?_⟩
    by_contra hne
    simp [Region.refusal, hne] at h
  · have hne0 : elapsed.val ≠ 0 := fun e => h0 (hzero.2 e)
    by_cases h50 : elapsed ≤ 50
    · have hend := hfifty.1 h50
      rw [regionOf_eq_grace (by omega) (by omega)] at h
      refine Or.inr (Or.inl ⟨h0, h50, ?_, ?_⟩)
      · intro heq
        simp [Region.refusal, heq] at h
      · by_contra hnot
        by_cases hcaller : caller = task.designatedKeeper <;>
          simp [Region.refusal, hcaller, hnot] at h
    · have hend : ¬ elapsed.val ≤ 50 := h50
      rw [regionOf_eq_postGrace (by omega)] at h
      refine Or.inr (Or.inr ⟨h0, h50, ?_⟩)
      by_contra hnot
      simp [Region.refusal, hnot] at h

theorem executeDistribution_eq_interp (isSecondary : Bool) :
    executeDistribution host p inv task caller isSecondary =
      (distributionSteps task caller isSecondary).interp
        (Operation.code host p inv task caller) := by
  cases isSecondary with
  | true => rfl
  | false =>
      unfold executeDistribution distributionSteps
      simp only [Program.interp_request_bind, Program.interp_request, Bool.false_eq_true, if_false]
      rfl

theorem paySecondaryReward_eq_interp (reward : I128) :
    paySecondaryReward host caller reward =
      (rewardSteps reward).interp (Operation.code host p inv task caller) := by
  unfold paySecondaryReward rewardSteps
  split
  · exact (Program.interp_request _).symm
  · rfl

/-- Past the arbitration, the code of a call performs these operations: in each region the checks
of the code are those that have been passed. -/
theorem outcome_eq_interp (htask : env.tasks.lookup taskId = some task)
    (hauth : inv.authorized caller = true) (hpass : PassesArbitration env task caller) :
    (executeDripSplit host p inv taskId caller).outcome env =
      ((executionSteps taskId task caller).interp
        (Operation.code host p inv task caller)).outcome env := by
  obtain ⟨hle, hchecks⟩ := hpass.cases
  obtain ⟨elapsed, hsub, hval⟩ := sub_of_le p hle
  have hearly : ¬ env.ledgerSequence < task.nextAllowedExecution := not_lt.2 hle
  have hsequence : ((Operation.sequence : Operation Address).code host p inv task caller).outcome
      env = .ok (env.ledgerSequence, env) := rfl
  have helapsed : ((Operation.elapsed env.ledgerSequence : Operation Address).code host p inv task
      caller).outcome env = .ok (elapsed, env) := outcome_arith_eq_ok.2 ⟨hsub, rfl⟩
  unfold executeDripSplit executionSteps
  rw [Tx.outcome_bind_of_ok (outcome_getTask_of_some htask),
    Tx.outcome_bind_of_ok (outcome_requireAuth hauth env), Tx.outcome_get_bind,
    Tx.outcome_bind_of_ok (Tx.outcome_reject_of_neg hearly _ env),
    Tx.outcome_bind_of_ok (outcome_arith_eq_ok.2 ⟨hsub, rfl⟩), Program.interp_request_bind,
    Tx.outcome_bind_of_ok hsequence, Program.interp_request_bind, Tx.outcome_bind_of_ok helapsed]
  rcases hchecks elapsed hval with ⟨h0, hcaller⟩ | ⟨h0, h50, hcaller, hreg⟩ | ⟨h0, h50, hreg⟩
  · simp only [if_pos h0]
    unfold executeDesignated
    rw [Tx.outcome_bind_of_ok (Tx.outcome_reject_of_neg (not_not.2 hcaller) _ env),
      executeDistribution_eq_interp]
  · have hregistered : ¬ isRegistered env caller = false := by
      rw [hreg]
      exact Bool.true_eq_false_eq_False
    simp only [if_neg h0, if_pos h50]
    unfold executeInGrace
    rw [Tx.outcome_bind_of_ok (Tx.outcome_reject_of_neg hcaller _ env), Tx.outcome_get_bind,
      Tx.outcome_bind_of_ok (Tx.outcome_reject_of_neg hregistered _ env),
      Program.interp_request_bind]
    refine congrArg (fun x => (applySlash p task.designatedKeeper >>= x).outcome env) (funext ?_)
    rintro ⟨slashAmount, secondaryReward⟩
    simp only [Program.interp_bind, Program.interp_request, ← executeDistribution_eq_interp,
      ← paySecondaryReward_eq_interp]
    rfl
  · have hregistered : ¬ isRegistered env caller = false := by
      rw [hreg]
      exact Bool.true_eq_false_eq_False
    simp only [if_neg h0, if_neg h50]
    unfold executePostGrace
    rw [Tx.outcome_get_bind, Tx.outcome_bind_of_ok (Tx.outcome_reject_of_neg hregistered _ env),
      Program.interp_request_bind, ← executeDistribution_eq_interp]
    rfl

/-! ## Refusals -/

/-- A refused call ends in the error of its region. -/
theorem result_of_refusal (host : Host Address TokenState) (p : Profile)
    (htask : env.tasks.lookup taskId = some task) (hauth : inv.authorized caller = true)
    {e : ContractError}
    (hrefusal : (regionOf task.nextAllowedExecution.val env.ledgerSequence.val).refusal
      (decide (caller = task.designatedKeeper)) (isRegistered env caller) = some e) :
    (executeDripSplit host p inv taskId caller).result env = .error (.error e) := by
  rcases lt_or_ge env.ledgerSequence.val task.nextAllowedExecution.val with hlt | hge
  · have hearly : env.ledgerSequence < task.nextAllowedExecution := hlt
    unfold regionOf at hrefusal
    rw [if_pos hlt] at hrefusal
    cases hrefusal
    unfold executeDripSplit
    rw [Tx.result_bind_of_ok (outcome_getTask_of_some htask),
      Tx.result_bind_of_ok (outcome_requireAuth hauth env),
      Tx.result_bind_of_ok (Tx.outcome_get env),
      Tx.result_bind_of_error (Tx.outcome_reject_of_pos hearly _ env)]
  · obtain ⟨elapsed, hval, hout⟩ := outcome_executeDripSplit_of_le host p htask hauth hge
    have hzero : elapsed = 0 ↔ elapsed.val = 0 := MachineInt.eq_iff
    have hfifty : elapsed ≤ 50 ↔ elapsed.val ≤ 50 := Iff.rfl
    unfold Tx.result
    rw [hout]
    by_cases h0 : elapsed = 0
    · have hledger := hzero.1 h0
      rw [regionOf_eq_designated (by omega)] at hrefusal
      have hcaller : caller ≠ task.designatedKeeper := by
        intro heq
        simp [Region.refusal, heq] at hrefusal
      simp only [Region.refusal, decide_eq_false hcaller, Bool.false_eq_true, if_false,
        Option.some.injEq] at hrefusal
      subst hrefusal
      rw [if_pos h0]
      exact Tx.result_bind_of_error (Tx.outcome_reject_of_pos hcaller _ env)
    · have hne0 : elapsed.val ≠ 0 := fun e => h0 (hzero.2 e)
      by_cases h50 : elapsed ≤ 50
      · have hend := hfifty.1 h50
        rw [regionOf_eq_grace (by omega) (by omega)] at hrefusal
        rw [if_neg h0, if_pos h50]
        unfold executeInGrace
        by_cases hcaller : caller = task.designatedKeeper
        · simp only [Region.refusal, decide_eq_true hcaller, if_true,
            Option.some.injEq] at hrefusal
          subst hrefusal
          exact Tx.result_bind_of_error (Tx.outcome_reject_of_pos hcaller _ env)
        · have hregistered : isRegistered env caller = false := by
            by_contra hreg
            simp [Region.refusal, hcaller, eq_true_of_ne_false hreg] at hrefusal
          simp only [Region.refusal, decide_eq_false hcaller, hregistered, Bool.false_eq_true,
            if_false, Option.some.injEq] at hrefusal
          subst hrefusal
          refine (Tx.result_bind_of_ok (Tx.outcome_reject_of_neg hcaller _ env)).trans ?_
          refine (Tx.result_bind_of_ok (Tx.outcome_get env)).trans ?_
          exact Tx.result_bind_of_error (Tx.outcome_reject_of_pos hregistered _ env)
      · have hend : ¬ elapsed.val ≤ 50 := h50
        rw [regionOf_eq_postGrace (by omega)] at hrefusal
        rw [if_neg h0, if_neg h50]
        have hregistered : isRegistered env caller = false := by
          by_contra hreg
          simp [Region.refusal, eq_true_of_ne_false hreg] at hrefusal
        simp only [Region.refusal, hregistered, Bool.false_eq_true, if_false,
          Option.some.injEq] at hrefusal
        subst hrefusal
        unfold executePostGrace
        refine (Tx.result_bind_of_ok (Tx.outcome_get env)).trans ?_
        exact Tx.result_bind_of_error (Tx.outcome_reject_of_pos hregistered _ env)

/-! ## Acceptance -/

/-- The errors with which the arbitration turns a caller away. -/
def windowErrors : List ContractError :=
  [.tooEarlyToExecute, .unauthorizedExecutor, .gracePeriodActive, .callerNotSecondaryEligible]

/-- The failure is not one of the arbitration. -/
def NotWindowError (f : Failure) : Prop := ∀ e ∈ windowErrors, f ≠ .error e

instance (f : Failure) : Decidable (NotWindowError f) :=
  inferInstanceAs (Decidable (∀ e ∈ windowErrors, f ≠ .error e))

/-- The call is not turned away by the window and caller checks. -/
def AcceptsCaller (host : Host Address TokenState) (p : Profile)
    (inv : Invocation Address TokenState) (env : Env Address TokenState) (taskId : TaskId)
    (caller : Address) : Prop :=
  ∀ f, (executeDripSplit host p inv taskId caller).result env = .error f → NotWindowError f

/-- The operations of an execution never fail with an error of the arbitration. -/
theorem Operation.ensures_notWindowError (host : Host Address TokenState) (p : Profile)
    (inv : Invocation Address TokenState) (task : ExecutionTask Address) (caller : Address)
    (op : Operation Address) :
    Tx.Ensures (fun _ => True) NotWindowError (op.code host p inv task caller) := by
  have hfound : ∀ a, Tx.Ensures (fun _ => True) NotWindowError
      (getKeeper a : AnchorM Address TokenState (Keeper Address)) := by
    intro a
    unfold getKeeper
    apply Tx.ensures_get_bind
    intro s hs
    exact Tx.ensures_require _ (by decide) s hs
  cases op with
  | sequence => exact Tx.ensures_get_bind fun s hs => Tx.ensures_pure _ s hs
  | elapsed currentLedger => exact Tx.ensures_require _ (by decide)
  | slash =>
      show Tx.Ensures _ _ (applySlash p task.designatedKeeper)
      unfold applySlash
      apply (hfound _).bind
      intro k
      split
      · apply (Tx.ensures_modify fun _ _ => trivial).bind
        intro _ s _
        exact Tx.ensuresAt_of_error rfl (by decide)
      · apply (Tx.ensures_require _ (by decide)).bind
        intro a
        apply Tx.ensures_get_bind
        intro s hs
        apply (Tx.ensures_require _ (by decide) s hs).bind
        intro t
        apply (Tx.ensures_modify fun _ _ => trivial).bind
        intro _
        apply (Tx.ensures_modify fun _ _ => trivial).bind
        intro _
        apply (Tx.ensures_modify fun _ _ => trivial).bind
        intro _
        exact Tx.ensures_pure _
  | drip =>
      show Tx.Ensures _ _ (invokeDripList inv task.targetDripList)
      unfold invokeDripList
      apply Tx.ensures_get_bind
      intro s hs
      apply (Tx.ensures_require _ (by decide) s hs).bind
      intro tokens
      exact Tx.ensures_modify fun _ _ => trivial
  | pay amount =>
      show Tx.Ensures _ _ (payFromContract host caller amount)
      unfold payFromContract
      apply Tx.ensures_get_bind
      intro s hs
      apply (Tx.ensures_require _ (by decide) s hs).bind
      intro token
      apply (Tx.ensures_reject _ (by decide)).bind
      intro _
      apply (Tx.ensures_require _ (by decide)).bind
      intro tokens
      exact Tx.ensures_modify fun _ _ => trivial
  | next currentLedger => exact Tx.ensures_require _ (by decide)
  | schedule nextAllowedExecution => exact Tx.ensures_modify fun _ _ => trivial
  | lookup => exact hfound caller
  | count totalExecutions => exact Tx.ensures_require _ (by decide)
  | credit keeper => exact Tx.ensures_modify fun _ _ => trivial
  | publish e => exact Tx.ensures_modify fun _ _ => trivial

theorem mem_windowErrors_of_refusal {region : Region} {isDesignated isRegistered : Bool}
    {e : ContractError} (h : region.refusal isDesignated isRegistered = some e) :
    e ∈ windowErrors := by
  revert h
  cases region <;> cases isDesignated <;> cases isRegistered <;>
    simp only [Region.refusal, if_true, if_false, Bool.false_eq_true, Option.some.injEq,
      reduceCtorEq, false_imp_iff] <;>
    (rintro rfl; decide)

/-- A call on a stored task by an authorised caller is accepted exactly when the region refuses
nothing. -/
theorem acceptsCaller_iff (host : Host Address TokenState) (p : Profile)
    (htask : env.tasks.lookup taskId = some task) (hauth : inv.authorized caller = true) :
    AcceptsCaller host p inv env taskId caller ↔ PassesArbitration env task caller := by
  constructor
  · intro haccepts
    cases hrefusal : (regionOf task.nextAllowedExecution.val env.ledgerSequence.val).refusal
        (decide (caller = task.designatedKeeper)) (isRegistered env caller) with
    | none => exact hrefusal
    | some e =>
        have hnot := haccepts _ (result_of_refusal host p htask hauth hrefusal)
        exact absurd rfl (hnot e (mem_windowErrors_of_refusal hrefusal))
  · intro hpass f hresult
    have hensures := Program.ensures_interp
      (Operation.ensures_notWindowError host p inv task caller)
      (executionSteps taskId task caller) env trivial
    cases hout : (executeDripSplit host p inv taskId caller).outcome env with
    | ok r =>
        rw [Tx.result_of_ok hout] at hresult
        cases hresult
    | error e =>
        rw [Tx.result_of_error hout] at hresult
        cases hresult
        rw [outcome_eq_interp htask hauth hpass] at hout
        exact hensures.of_error hout

end ChronosKeeper.Anchor
