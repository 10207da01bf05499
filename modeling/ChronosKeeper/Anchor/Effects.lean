import ChronosKeeper.Anchor.Accounting

/-!
# The exact effect of an execution

What holds of a keeper from its registration with a positive stake on holds of every keeper of a
contract whose minimum stake is positive (`Reachable.kept`); in particular, every stake is positive.
From there the effect of a successful execution is determined (`execution_effect`): the schedule
of the task, two counters of the caller, in the grace period the stake and the flag of the
designated keeper and the treasury, and one payment. Nothing else changes.
-/

set_option autoImplicit false

namespace ChronosKeeper.Anchor

open ChronosKeeper.Foundations

variable {Address TokenState : Type}

/-! ## Positive stakes -/

/-- The configured minimum stake, if any, is positive. -/
def PositiveMinimum (env : Env Address TokenState) : Prop := ∀ m ∈ env.minKeeperStake, 1 ≤ m.val

instance (env : Env Address TokenState) : Decidable (PositiveMinimum env) :=
  inferInstanceAs (Decidable (∀ m ∈ env.minKeeperStake, 1 ≤ m.val))

/-- A property of keeper records that a registration with a positive stake establishes and that
executions and slashes keep. -/
structure KeptFromRegistration (p : Profile) (P : Keeper Address → Prop) : Prop where
  registered : ∀ keeper stakeAmount, 1 ≤ stakeAmount.val → P (newKeeper keeper stakeAmount)
  executed : ∀ k totalExecutions currentLedger, P k →
    P (executedKeeper k totalExecutions currentLedger)
  slashed : ∀ k a, slashFormula p k.stakeAmount = some a → P k → P (slashedKeeper k a.newStake)

/-- Without wrap-around a slash leaves a positive stake positive. -/
theorem kept_pos :
    KeptFromRegistration .debug fun k : Keeper Address => 1 ≤ k.stakeAmount.val where
  registered _ _ hpos := hpos
  executed _ _ _ hpos := hpos
  slashed _ _ hformula hpos := (isSlash_of_slashFormula (Or.inl rfl) hformula).newStake_pos hpos

/-- Even with wrap-around no slash empties a stake. -/
theorem kept_ne_zero (p : Profile) :
    KeptFromRegistration p fun k : Keeper Address => k.stakeAmount ≠ 0 where
  registered keeper stakeAmount hpos := by
    intro hzero
    have hval : stakeAmount.val = 0 := MachineInt.eq_iff.1 hzero
    omega
  executed _ _ _ hne := hne
  slashed _ _ hformula hne := newStake_ne_zero hformula hne

variable [DecidableEq Address] {host : Host Address TokenState} {p : Profile}
  {inv : Invocation Address TokenState} {env env' : Env Address TokenState}

/-- A minimum that is positive after a step was so before it. -/
theorem positiveMinimum_of_step (h : WellFormed env) {action : Action Address TokenState}
    (hmin : PositiveMinimum (step host p env action)) : PositiveMinimum env := by
  intro m hm
  -- A configured minimum means that the initialisation is over, so it does not change any more.
  have hadmin : env.admin ≠ none := by
    intro hnone
    rw [h.minKeeperStake_iff.2 hnone] at hm
    cases hm
  have hsame : (step host p env action).minKeeperStake = env.minKeeperStake :=
    (instance_persists hadmin action).2.2
  apply hmin
  rw [hsame]
  exact hm

/-- Whatever holds from registration on holds of every keeper after a step. -/
theorem kept_step {P : Keeper Address → Prop} (hkept : KeptFromRegistration p P)
    (h : WellFormed env) {action : Action Address TokenState}
    (hall : PositiveMinimum env → FiniteMap.All P env.keepers)
    (hmin : PositiveMinimum (step host p env action)) :
    FiniteMap.All P (step host p env action).keepers := by
  have hmin' := positiveMinimum_of_step h hmin
  have hP := hall hmin'
  have heffect := step_effect host p env action
  generalize step host p env action = env' at heffect
  cases heffect with
  | registered inv keeper stakeAmount _ _ hreached =>
      -- The enforced minimum is positive, whether it is configured or not.
      have heffective : 1 ≤ (effectiveMinStake env).val := by
        unfold effectiveMinStake
        cases hm : env.minKeeperStake with
        | none => decide
        | some m => exact hmin' m hm
      apply hP.insert
      apply hkept.registered
      exact heffective.trans hreached
  | executed inv taskId caller task env' _ _ _ hexec =>
      apply hexec.all_keepers hP
      · exact hkept.executed
      · intro _ k a _ hformula
        exact hkept.slashed k a hformula
  | idle => exact hP
  | initialized => exact hP
  | provisioned => exact hP
  | closed => exact hP
  | transferred => exact hP

/-- With a positive minimum, what holds from registration on holds of every keeper in a run. -/
theorem Reachable.kept {P : Keeper Address → Prop} (hkept : KeptFromRegistration p P)
    (h : Reachable host p env) : PositiveMinimum env → FiniteMap.All P env.keepers := by
  obtain ⟨tokens, ledgerSequence, actions, rfl⟩ := h
  have hstep : ∀ (env : Env Address TokenState) (action : Action Address TokenState),
      WellFormed env ∧ (PositiveMinimum env → FiniteMap.All P env.keepers) →
        WellFormed (step host p env action) ∧ (PositiveMinimum (step host p env action) →
          FiniteMap.All P (step host p env action).keepers) :=
    fun _ action h => ⟨h.1.step action, kept_step hkept h.1 h.2⟩
  have hboth := run_induction (s := Anchor.deployed tokens ledgerSequence)
    ⟨wellFormed_deployed tokens ledgerSequence, fun _ a k hk => nomatch hk⟩ hstep actions
  exact hboth.2

/-! ## Payments -/

/-- The amount went from the contract to the recipient, and no other balance changed. -/
structure Paid (host : Host Address TokenState) (token recipient : Address) (amount : Int)
    (st st' : TokenState) : Prop where
  received : (host.token.balance st' token recipient).val =
    (host.token.balance st token recipient).val + amount
  spent : (host.token.balance st' token host.currentContractAddress).val =
    (host.token.balance st token host.currentContractAddress).val - amount
  others : ∀ token' holder,
    ¬ (token' = token ∧ (holder = host.currentContractAddress ∨ holder = recipient)) →
      host.token.balance st' token' holder = host.token.balance st token' holder

section Payments

variable {token recipient : Address} {st st' st'' : TokenState}

omit [DecidableEq Address] in
theorem paid_of_payment (hne : recipient ≠ host.currentContractAddress) {amount : I128}
    (h : IsPayment host token st recipient amount st') :
    Paid host token recipient amount.val st st' where
  received := host.token.transfer_dst h.transfer (Ne.symm hne)
  spent := host.token.transfer_src h.transfer (Ne.symm hne)
  others := host.token.transfer_frame h.transfer

omit [DecidableEq Address] in
theorem paid_of_secondaryPayment (hne : recipient ≠ host.currentContractAddress) {reward : I128}
    (h0 : 0 ≤ reward.val) (h : IsSecondaryPayment host token st recipient reward st') :
    Paid host token recipient reward.val st st' := by
  unfold IsSecondaryPayment at h
  split at h
  · exact paid_of_payment hne h
  · rename_i hnot
    subst h
    exact ⟨by omega, by omega, fun _ _ _ => rfl⟩

omit [DecidableEq Address] in
theorem Paid.trans {amount amount' : Int} (h : Paid host token recipient amount st st')
    (h' : Paid host token recipient amount' st' st'') :
    Paid host token recipient (amount + amount') st st'' where
  received := by
    rw [h'.received, h.received]
    omega
  spent := by
    rw [h'.spent, h.spent]
    omega
  others token' holder hother :=
    (h'.others token' holder hother).trans (h.others token' holder hother)

omit [DecidableEq Address] in
/-- Only the balances before the payment matter. -/
theorem Paid.of_balance_eq {amount : Int} (h : Paid host token recipient amount st' st'')
    (heq : ∀ token holder, host.token.balance st' token holder =
      host.token.balance st token holder) : Paid host token recipient amount st st'' where
  received := by rw [h.received, heq]
  spent := by rw [h.spent, heq]
  others token' holder hother := (h.others token' holder hother).trans (heq token' holder)

end Payments

/-! ## The effect -/

/-- The called drip list leaves the token balances alone. -/
def DripKeepsBalances (host : Host Address TokenState) (inv : Invocation Address TokenState)
    (env : Env Address TokenState) (task : ExecutionTask Address) : Prop :=
  ∀ st, inv.distributeWaveSplits task.targetDripList env.tokens = some st →
    ∀ token holder, host.token.balance st token holder = host.token.balance env.tokens token holder

/-- The record `k'` is `k` after a slash. -/
structure SlashedTo (k k' : Keeper Address) : Prop where
  address : k'.address = k.address
  lastExecutionLedger : k'.lastExecutionLedger = k.lastExecutionLedger
  totalExecutions : k'.totalExecutions = k.totalExecutions
  stakeAmount : k'.stakeAmount.val = k.stakeAmount.val - k.stakeAmount.val * 5 / 100
  ineligible : k'.ineligible = true ↔
    k.ineligible = true ∨ k'.stakeAmount.val < MIN_KEEPER_STAKE.val

/-- Outside the grace period: the record of the caller and one payment. -/
structure OrdinaryEffect (host : Host Address TokenState) (env env' : Env Address TokenState)
    (token : Address) (task : ExecutionTask Address) (caller : Address)
    (record : Keeper Address) : Prop where
  keepers : ∀ a, env'.keepers.lookup a =
    if a = caller then some record else env.keepers.lookup a
  treasury : env'.treasuryBalance = env.treasuryBalance
  paid : Paid host token caller task.microRewardPerRun.val env.tokens env'.tokens

/-- In the grace period: also the record `k` of the designated keeper and the treasury. -/
structure GraceEffect (host : Host Address TokenState) (env env' : Env Address TokenState)
    (token : Address) (task : ExecutionTask Address) (caller : Address)
    (record k k' : Keeper Address) : Prop where
  designated : env.keepers.lookup task.designatedKeeper = some k
  slashed : SlashedTo k k'
  keepers : ∀ a, env'.keepers.lookup a =
    if a = caller then some record
    else if a = task.designatedKeeper then some k'
    else env.keepers.lookup a
  treasury : treasury env' = treasury env +
    (k.stakeAmount.val * 5 / 100 - k.stakeAmount.val * 5 / 100 / 2)
  paid : Paid host token caller
    (task.microRewardPerRun.val + k.stakeAmount.val * 5 / 100 / 2) env.tokens env'.tokens

/-- What a successful execution leaves behind: the schedule of the task, the counters of the
caller, what the region adds to that, and nothing else. -/
structure ExecutionEffect (host : Host Address TokenState) (env env' : Env Address TokenState)
    (taskId : TaskId) (task : ExecutionTask Address) (caller : Address) (next : U32)
    (k : Keeper Address) (total : U64) (token : Address) : Prop where
  nextAllowedExecution :
    next.val = env.ledgerSequence.val + task.executionIntervalLedgers.val
  tasks : ∀ id, env'.tasks.lookup id =
    if id = taskId then some { task with nextAllowedExecution := next }
    else env.tasks.lookup id
  callerRecord : env.keepers.lookup caller = some k
  totalExecutions : total.val = k.totalExecutions.val + 1
  nativeToken : env.nativeToken = some token
  instance_eq : env'.ledgerSequence = env.ledgerSequence ∧ env'.admin = env.admin ∧
    env'.nativeToken = env.nativeToken ∧ env'.minKeeperStake = env.minKeeperStake ∧
    env'.taskCounter = env.taskCounter
  ordinary : ¬ InGrace env task → OrdinaryEffect host env env' token task caller
    { k with totalExecutions := total, lastExecutionLedger := env.ledgerSequence }
  grace : InGrace env task → caller ≠ task.designatedKeeper ∧
    ∃ kd kd', GraceEffect host env env' token task caller
      { k with totalExecutions := total, lastExecutionLedger := env.ledgerSequence } kd kd'

omit [DecidableEq Address] in
theorem slashedTo_slashedKeeper {k : Keeper Address} {a : SlashAmounts}
    (hslash : IsSlash k.stakeAmount.val a) (hs : 0 ≤ k.stakeAmount.val) :
    SlashedTo k (slashedKeeper k a.newStake) where
  address := rfl
  lastExecutionLedger := rfl
  totalExecutions := rfl
  stakeAmount := by
    rw [← (hslash.floor_of_nonneg hs).1]
    exact hslash.newStake
  ineligible := by
    show (if a.newStake < MIN_KEEPER_STAKE then true else k.ineligible) = true ↔ _
    by_cases hlt : a.newStake < MIN_KEEPER_STAKE
    · rw [if_pos hlt]
      exact iff_of_true rfl (Or.inr hlt)
    · rw [if_neg hlt]
      exact ⟨Or.inl, fun h => h.resolve_right hlt⟩

theorem ordinaryEffect_distributed (h : WellFormed env) {task : ExecutionTask Address}
    {caller : Address} {d : Distribution Address TokenState}
    (hcaller : caller ≠ host.currentContractAddress)
    (hdrip : DripKeepsBalances host inv env task)
    (hd : IsDistribution host p inv env task caller d) :
    OrdinaryEffect host env (distributed env task caller false d) d.token task caller
      (executedKeeper d.keeper d.totalExecutions env.ledgerSequence) where
  keepers := lookup_keepers_distributed task h hd.keeper false
  treasury := rfl
  paid := (paid_of_payment hcaller hd.payment).of_balance_eq (hdrip d.dripTokens hd.drip)

theorem graceEffect_secondaryPaid (taskId : TaskId) (h : WellFormed env)
    {task : ExecutionTask Address} {caller : Address} {k : Keeper Address} {a : SlashAmounts}
    {t : I128} {d : Distribution Address TokenState} {st : TokenState}
    (hcaller : caller ≠ host.currentContractAddress)
    (hdrip : DripKeepsBalances host inv env task)
    (hk : env.keepers.lookup task.designatedKeeper = some k) (hs : 0 ≤ k.stakeAmount.val)
    (hformula : slashFormula .debug k.stakeAmount = some a)
    (htreasury : Profile.debug.add (env.treasuryBalance.getD 0) a.treasuryPortion = some t)
    (hd : IsDistribution host .debug inv (slashed env task.designatedKeeper k a t) task caller d)
    (hpay : IsSecondaryPayment host d.token d.paidTokens caller a.secondaryReward st) :
    GraceEffect host env
      (secondaryPaid (distributed (slashed env task.designatedKeeper k a t) task caller true d)
        taskId task caller a st) d.token task caller
      (executedKeeper d.keeper d.totalExecutions env.ledgerSequence) k
      (slashedKeeper k a.newStake) := by
  have hslash := isSlash_of_slashFormula (Or.inl rfl) hformula
  have hfloor := hslash.floor_of_nonneg hs
  have hbounds := hslash.bounds_of_nonneg hs
  have hmicro : Paid host d.token caller task.microRewardPerRun.val env.tokens d.paidTokens :=
    (paid_of_payment hcaller hd.payment).of_balance_eq (hdrip d.dripTokens hd.drip)
  have hreward := paid_of_secondaryPayment hcaller hbounds.2.2.2.2.1 hpay
  constructor
  · exact hk
  · exact slashedTo_slashedKeeper hslash hs
  · exact lookup_keepers_grace h hk a t st hd.keeper
  · have hgrown := treasury_slashed (k := k) (Or.inl rfl) htreasury task.designatedKeeper
    rw [hslash.treasuryPortion, hfloor.1, hfloor.2] at hgrown
    exact hgrown
  · rw [← hfloor.2]
    exact hmicro.trans hreward

theorem effect_of_executes (h : WellFormed env)
    (hpositive : FiniteMap.All (fun k => 1 ≤ k.stakeAmount.val) env.keepers) {taskId : TaskId}
    {task : ExecutionTask Address} {caller : Address}
    (hcaller : caller ≠ host.currentContractAddress)
    (hdrip : DripKeepsBalances host inv env task) (htask : env.tasks.lookup taskId = some task)
    (hexec : Executes host .debug inv env taskId task caller env') :
    ∃ next k total token, ExecutionEffect host env env' taskId task caller next k total token := by
  obtain ⟨next, hnext, htasks⟩ := hexec.lookup_tasks h htask
  have hinstance := hexec.instance_eq
  cases hexec with
  | designated d hledger _ hd =>
      have hnot := not_inGrace_of_eq hledger
      have heffect := ordinaryEffect_distributed h hcaller hdrip hd
      exact ⟨next, d.keeper, d.totalExecutions, d.token, Profile.val_of_fit_debug hnext, htasks,
        hd.keeper, Profile.val_of_fit_debug hd.totalExecutions, hd.token, hinstance,
        fun _ => heffect, fun hgrace => absurd hgrace hnot⟩
  | postGrace elapsed d hgrace _ _ hd =>
      have hnot := not_inGrace_of_lt hgrace
      have heffect := ordinaryEffect_distributed (h.missed taskId elapsed) hcaller hdrip hd
      exact ⟨next, d.keeper, d.totalExecutions, d.token, Profile.val_of_fit_debug hnext, htasks,
        hd.keeper, Profile.val_of_fit_debug hd.totalExecutions, hd.token, hinstance,
        fun _ => ⟨heffect.keepers, heffect.treasury, heffect.paid⟩,
        fun hgrace => absurd hgrace hnot⟩
  | grace kd a t d st hopen hgrace hne _ hkd _ hformula htreasury hd hpay =>
      have hs : 0 ≤ kd.stakeAmount.val := by
        have hpos : 1 ≤ kd.stakeAmount.val := hpositive _ kd hkd
        omega
      -- The caller is not the slashed keeper, so its record is the one from before the slash.
      have hcallerKeeper := hd.keeper
      rw [lookup_caller_of_slashed h hkd hne] at hcallerKeeper
      have heffect := graceEffect_secondaryPaid taskId h hcaller hdrip hkd hs hformula
        htreasury hd hpay
      exact ⟨next, d.keeper, d.totalExecutions, d.token, Profile.val_of_fit_debug hnext, htasks,
        hcallerKeeper, Profile.val_of_fit_debug hd.totalExecutions, hd.token, hinstance,
        fun hnot => absurd ⟨hopen, hgrace⟩ hnot, fun _ => ⟨hne, kd, slashedKeeper kd a.newStake, heffect⟩⟩

/-- The exact effect and frame of a successful execution in a contract with a positive minimum
stake. -/
theorem execution_effect (host : Host Address TokenState) (inv : Invocation Address TokenState)
    (env : Env Address TokenState) (taskId : TaskId) (caller : Address)
    (hreach : Reachable host .debug env) (hmin : PositiveMinimum env)
    (hcaller : caller ≠ host.currentContractAddress)
    (hdrip : ∀ task, env.tasks.lookup taskId = some task → DripKeepsBalances host inv env task)
    (hok : Succeeds host .debug inv (.executeDripSplit taskId caller) env) :
    ∃ task next k total token, env.tasks.lookup taskId = some task ∧
      ExecutionEffect host env (step host .debug env (.call inv (.executeDripSplit taskId caller)))
        taskId task caller next k total token := by
  obtain ⟨task, htask, -, hexec⟩ := executes_of_succeeds hok
  obtain ⟨next, k, total, token, heffect⟩ := effect_of_executes hreach.wellFormed
    (hreach.kept kept_pos hmin) hcaller (hdrip task htask) htask hexec
  exact ⟨task, next, k, total, token, htask, heffect⟩

/-- A secondary execution one ledger after the window opened. -/
theorem execution_effect_sample :
    let env := run (step sampleHost .debug) (deployed (sampleTokens 1000) 0)
      [.call sampleInvocation (.initializeContract 2 1 1),
        .call sampleInvocation (.registerKeeper 3 400),
        .call sampleInvocation (.registerKeeper 4 1),
        .call sampleInvocation (.provisionTask 5 10 30 3), .closeLedger 11]
    ∃ task next k total token, env.tasks.lookup (sampleSha256 (taskSeed 0 0)) = some task ∧
      ExecutionEffect sampleHost env
        (step sampleHost .debug env
          (.call sampleInvocation (.executeDripSplit (sampleSha256 (taskSeed 0 0)) 4)))
        (sampleSha256 (taskSeed 0 0)) task 4 next k total token := by
  intro env
  apply execution_effect sampleHost sampleInvocation env (sampleSha256 (taskSeed 0 0)) 4
  · exact ⟨_, _, _, rfl⟩
  · decide +kernel
  · decide
  · intro task _ st hst token holder
    cases hst
    rfl
  · decide +kernel

end ChronosKeeper.Anchor
