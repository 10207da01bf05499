import ChronosKeeper.Anchor.Records

/-!
# Accounting

What the keepers are owed is `totalStake + treasury`; what the contract holds is its balance of
the native token. A successful execution lowers the first by the secondary reward and the second
by the micro reward and the secondary reward (`Executes.accounting`), a registration raises the
first and leaves the second alone. The results over runs follow: the conservation of stake
(`stake_conserved`), the cost of an execution (`surplus_execution`) and the condition under which
the collateral stays backed (`backed_of_covered`).
-/

set_option autoImplicit false

namespace ChronosKeeper.Anchor

open ChronosKeeper.Foundations

variable {Address TokenState : Type}

/-! ## Quantities -/

/-- The secondary reward of a slash of the stake `s`, over the integers. -/
def secondaryRewardOf (s : Int) : Int := ((s * 5).tdiv 100).tdiv 2

/-- The treasury portion of a slash of the stake `s`, over the integers. -/
def treasuryPortionOf (s : Int) : Int := (s * 5).tdiv 100 - secondaryRewardOf s

theorem IsSlash.treasuryPortion_eq {s : Int} {a : SlashAmounts} (h : IsSlash s a) :
    a.treasuryPortion.val = treasuryPortionOf s := by
  unfold treasuryPortionOf secondaryRewardOf
  rw [h.treasuryPortion, h.secondaryReward, h.slashAmount]

/-- What the balance of the contract in a token exceeds the stakes and the treasury by. -/
def surplus (host : Host Address TokenState) (env : Env Address TokenState) (token : Address) :
    Int :=
  contractBalance host env token - totalStake env - treasury env

/-- What leaves the contract when an amount is paid to `recipient`. -/
def paidOut (host : Host Address TokenState) [DecidableEq Address] (recipient : Address)
    (amount : Int) : Int :=
  if recipient = host.currentContractAddress then 0 else amount

variable [DecidableEq Address]

/-- The secondary reward of an execution of the task at the current ledger. -/
def graceReward (env : Env Address TokenState) (task : ExecutionTask Address) : Int :=
  if InGrace env task then
    match env.keepers.lookup task.designatedKeeper with
    | some k => secondaryRewardOf k.stakeAmount.val
    | none => 0
  else 0

/-- No arithmetic of a slash of the designated keeper wraps around. -/
def ExactGrace (p : Profile) (env : Env Address TokenState) (task : ExecutionTask Address) :
    Prop :=
  InGrace env task → ∀ k ∈ env.keepers.lookup task.designatedKeeper,
    p = .debug ∨ (IntTy.i128.InRange (k.stakeAmount.val * 5) ∧
      IntTy.i128.InRange (treasury env + treasuryPortionOf k.stakeAmount.val))

instance (p : Profile) (env : Env Address TokenState) (task : ExecutionTask Address) :
    Decidable (ExactGrace p env task) :=
  inferInstanceAs (Decidable (InGrace env task → ∀ k ∈ env.keepers.lookup task.designatedKeeper,
    p = .debug ∨ (IntTy.i128.InRange (k.stakeAmount.val * 5) ∧
      IntTy.i128.InRange (treasury env + treasuryPortionOf k.stakeAmount.val))))

variable {host : Host Address TokenState} {p : Profile} {inv : Invocation Address TokenState}
  {env env' : Env Address TokenState}

theorem graceReward_of_not_inGrace {task : ExecutionTask Address} (h : ¬ InGrace env task) :
    graceReward env task = 0 := if_neg h

theorem graceReward_of_inGrace {task : ExecutionTask Address} {k : Keeper Address}
    (h : InGrace env task) (hk : env.keepers.lookup task.designatedKeeper = some k) :
    graceReward env task = secondaryRewardOf k.stakeAmount.val := by
  unfold graceReward
  rw [if_pos h, hk]

theorem exactGrace_debug (env : Env Address TokenState) (task : ExecutionTask Address) :
    ExactGrace .debug env task := fun _ _ _ => Or.inl rfl

/-! ## Payments -/

theorem balance_of_payment {token recipient : Address} {st st' : TokenState} {amount : I128}
    (h : IsPayment host token st recipient amount st') :
    (host.token.balance st' token host.currentContractAddress).val =
      (host.token.balance st token host.currentContractAddress).val -
        paidOut host recipient amount.val := by
  unfold paidOut
  split
  · rename_i hself
    have htransfer := h.transfer
    rw [hself] at htransfer
    rw [host.token.transfer_self htransfer]
    omega
  · rename_i hne
    exact host.token.transfer_src h.transfer (Ne.symm hne)

theorem balance_of_secondaryPayment {token recipient : Address} {st st' : TokenState}
    {reward : I128} (h : IsSecondaryPayment host token st recipient reward st') :
    (host.token.balance st' token host.currentContractAddress).val =
      (host.token.balance st token host.currentContractAddress).val -
        paidOut host recipient (max reward.val 0) := by
  unfold IsSecondaryPayment at h
  split at h
  · rename_i hpos
    rw [balance_of_payment h, max_eq_left hpos.le]
  · rename_i hnot
    rw [h, max_eq_right (not_lt.1 hnot)]
    unfold paidOut
    split <;> omega

/-! ## Executions -/

/-- The treasury after a slash without wrap-around. -/
theorem treasury_slashed {k : Keeper Address} {a : SlashAmounts} {treasury' : I128}
    (hexact : p = .debug ∨ IntTy.i128.InRange (treasury env + a.treasuryPortion.val))
    (htreasury : p.add (env.treasuryBalance.getD 0) a.treasuryPortion = some treasury')
    (D : Address) :
    treasury (slashed env D k a treasury') = treasury env + a.treasuryPortion.val :=
  Profile.val_of_fit hexact htreasury

/-- What a successful execution does to the balance of the contract and to what it owes. -/
theorem Executes.accounting {taskId : TaskId} {task : ExecutionTask Address} {caller : Address}
    (hexec : Executes host p inv env taskId task caller env') (h : WellFormed env)
    (hexact : ExactGrace p env task) :
    ∃ token drip, env.nativeToken = some token ∧
      inv.distributeWaveSplits task.targetDripList env.tokens = some drip ∧
      contractBalance host env' token =
        (host.token.balance drip token host.currentContractAddress).val -
          paidOut host caller (task.microRewardPerRun.val + max (graceReward env task) 0) ∧
      totalStake env' + treasury env' =
        totalStake env + treasury env - graceReward env task := by
  cases hexec with
  | designated d hledger hcaller hd =>
      -- Without a slash only the micro reward leaves the contract.
      have hreward := graceReward_of_not_inGrace (not_inGrace_of_eq hledger)
      refine ⟨d.token, d.dripTokens, hd.token, hd.drip, ?_, ?_⟩
      · have hbalance := balance_of_payment hd.payment
        rw [hreward, max_self, add_zero]
        exact hbalance
      · have htotal := totalStake_distributed task h hd.keeper false
        have htreasury : treasury (distributed env task caller false d) = treasury env := rfl
        omega
  | grace k a t d st hopen hgrace hcaller hregistered hk hstake hformula htreasury hd hpay =>
      have hin : InGrace env task := ⟨hopen, hgrace⟩
      have hslash : IsSlash k.stakeAmount.val a :=
        isSlash_of_slashFormula ((hexact hin k hk).imp id And.left) hformula
      have hreward : graceReward env task = a.secondaryReward.val := by
        rw [graceReward_of_inGrace hin hk, hslash.secondaryReward, hslash.slashAmount]
        rfl
      have hportion : a.treasuryPortion.val = treasuryPortionOf k.stakeAmount.val := by
        rw [hslash.treasuryPortion, hslash.secondaryReward, hslash.slashAmount]
        rfl
      refine ⟨d.token, d.dripTokens, hd.token, hd.drip, ?_, ?_⟩
      · -- Two payments, one after the other.
        have hmicro := balance_of_payment hd.payment
        have hsecond := balance_of_secondaryPayment hpay
        rw [hreward]
        show (host.token.balance st d.token host.currentContractAddress).val = _
        rw [hsecond, hmicro]
        unfold paidOut
        split <;> omega
      · -- The stake loses the slash, the treasury gains all of it but the reward.
        have hW := h.slashed task.designatedKeeper k a t
        have htotal := totalStake_distributed task hW hd.keeper true
        rw [totalStake_slashed h hk] at htotal
        have htreasury' := treasury_slashed (k := k)
          ((hexact hin k hk).imp id fun hr => hportion ▸ hr.2) htreasury task.designatedKeeper
        have hnew := hslash.newStake
        have hrest := hslash.treasuryPortion
        show totalStake (distributed (slashed env task.designatedKeeper k a t) task caller true d) +
          treasury (slashed env task.designatedKeeper k a t) = _
        omega
  | postGrace elapsed d hgrace hregistered helapsed hd =>
      have hreward := graceReward_of_not_inGrace (not_inGrace_of_lt hgrace)
      refine ⟨d.token, d.dripTokens, hd.token, hd.drip, ?_, ?_⟩
      · have hbalance := balance_of_payment hd.payment
        rw [hreward, max_self, add_zero]
        exact hbalance
      · have hW := h.missed taskId elapsed
        have htotal := totalStake_distributed task hW hd.keeper false
        have hmissed : totalStake (missed env taskId elapsed) = totalStake env := rfl
        have htreasury :
            treasury (distributed (missed env taskId elapsed) task caller false d) =
              treasury env := rfl
        omega

/-! ## Conservation of stake -/

/-- The stake an action registers. -/
def registeredStake (host : Host Address TokenState) (p : Profile) (env : Env Address TokenState) :
    Action Address TokenState → Int
  | .call inv (.registerKeeper keeper stakeAmount) =>
      if Succeeds host p inv (.registerKeeper keeper stakeAmount) env then stakeAmount.val else 0
  | _ => 0

/-- The secondary reward `applySlash` returns within an action: that of a successful execution in
the grace period. -/
def returnedReward (host : Host Address TokenState) (p : Profile) (env : Env Address TokenState) :
    Action Address TokenState → Int
  | .call inv (.executeDripSplit taskId caller) =>
      if Succeeds host p inv (.executeDripSplit taskId caller) env then
        match env.tasks.lookup taskId with
        | some task =>
            if InGrace env task then
              match (applySlash p task.designatedKeeper).outcome env with
              | .ok ((_, secondaryReward), _) => secondaryReward.val
              | .error _ => 0
            else 0
        | none => 0
      else 0
  | _ => 0

/-- A successful execution returns the reward of its region. -/
theorem returnedReward_of_executes {taskId : TaskId} {task : ExecutionTask Address}
    {caller : Address} (hexact : ExactGrace p env task)
    (hok : Succeeds host p inv (.executeDripSplit taskId caller) env)
    (htask : env.tasks.lookup taskId = some task)
    (hexec : Executes host p inv env taskId task caller env') :
    returnedReward host p env (.call inv (.executeDripSplit taskId caller)) =
      graceReward env task := by
  simp only [returnedReward, if_pos hok, htask]
  cases hexec with
  | designated d hledger =>
      have hnot := not_inGrace_of_eq hledger
      rw [if_neg hnot, graceReward_of_not_inGrace hnot]
  | grace k a t d st hopen hgrace hcaller hregistered hk hstake hformula htreasury =>
      have hin : InGrace env task := ⟨hopen, hgrace⟩
      have hslash := isSlash_of_slashFormula ((hexact hin k hk).imp id And.left) hformula
      have hout := outcome_applySlash_eq_ok.2 ⟨k, a, t, hk, hstake, hformula, htreasury, rfl, rfl⟩
      rw [if_pos hin, graceReward_of_inGrace hin hk, hout]
      show a.secondaryReward.val = _
      rw [hslash.secondaryReward, hslash.slashAmount]
      rfl
  | postGrace elapsed d hgrace =>
      have hnot := not_inGrace_of_lt hgrace
      rw [if_neg hnot, graceReward_of_not_inGrace hnot]

/-- One step changes what the keepers are owed by the stake it registers less the reward it
returns. -/
theorem owed_step (h : WellFormed env) (action : Action Address TokenState) :
    totalStake (step host .debug env action) + treasury (step host .debug env action) =
      totalStake env + treasury env +
        (registeredStake host .debug env action - returnedReward host .debug env action) := by
  have heffect := step_effect host .debug env action
  generalize step host .debug env action = env' at heffect
  cases heffect with
  | idle action hidle =>
      -- A call without effect has failed, or it only reads.
      have hregistered : registeredStake host .debug env action = 0 := by
        unfold registeredStake
        split
        · rename_i inv keeper stakeAmount
          rcases hidle _ _ rfl with hfail | hread
          · exact if_neg hfail
          · cases hread
        · rfl
      have hreturned : returnedReward host .debug env action = 0 := by
        unfold returnedReward
        split
        · rename_i inv taskId caller
          rcases hidle _ _ rfl with hfail | hread
          · exact if_neg hfail
          · cases hread
        · rfl
      omega
  | initialized => simp [registeredStake, returnedReward, totalStake, treasury, initialized]
  | registered inv keeper stakeAmount hok hauth hmin hnew =>
      have htotal := totalStake_registered stakeAmount hnew
      have htreasury : treasury (registered env keeper stakeAmount) = treasury env := rfl
      simp only [registeredStake, returnedReward, if_pos hok]
      omega
  | provisioned => simp [registeredStake, returnedReward, totalStake, treasury, provisioned]
  | executed inv taskId caller task env' hok htask hauth hexec =>
      have hexact := exactGrace_debug env task
      obtain ⟨-, -, -, -, -, howed⟩ := hexec.accounting h hexact
      rw [howed, returnedReward_of_executes hexact hok htask hexec]
      simp only [registeredStake]
      omega
  | closed => simp [registeredStake, returnedReward, totalStake, treasury]
  | transferred => simp [registeredStake, returnedReward, totalStake, treasury]

/-- A slash moves its amount out of the stake, one part into the treasury and the other into the
reward. -/
theorem applySlash_splits (h : WellFormed env) {D : Address} {slashAmount secondaryReward : I128}
    (hok : (applySlash .debug D).outcome env = .ok ((slashAmount, secondaryReward), env')) :
    ∃ k k', env.keepers.lookup D = some k ∧ env'.keepers.lookup D = some k' ∧
      k'.stakeAmount.val = k.stakeAmount.val - slashAmount.val ∧
      treasury env' - treasury env + secondaryReward.val = slashAmount.val := by
  obtain ⟨k, a, t, hk, hz, hformula, htreasury, hr, rfl⟩ := outcome_applySlash_eq_ok.1 hok
  cases hr
  have hslash := isSlash_of_slashFormula (Or.inl rfl) hformula
  have hgrown := treasury_slashed (k := k) (Or.inl rfl) htreasury D
  refine ⟨k, slashedKeeper k a.newStake, hk, ?_, hslash.newStake, ?_⟩
  · rw [lookup_keepers_slashed h hk, if_pos rfl]
  · have hportion := hslash.treasuryPortion
    omega

/-- Over every run, the registered stakes are what the keepers and the treasury still hold and
the secondary rewards that were paid; no slash on the way loses anything to rounding. -/
theorem stake_conserved (host : Host Address TokenState) (tokens : TokenState)
    (ledgerSequence : U32) (actions : List (Action Address TokenState)) :
    let start := deployed tokens ledgerSequence
    let final := run (step host .debug) start actions
    traceSum (step host .debug) (registeredStake host .debug) start actions =
      totalStake final + treasury final +
        traceSum (step host .debug) (returnedReward host .debug) start actions ∧
    ∀ D slashAmount secondaryReward env',
      (applySlash .debug D).outcome final = .ok ((slashAmount, secondaryReward), env') →
      ∃ k k', final.keepers.lookup D = some k ∧ env'.keepers.lookup D = some k' ∧
        k'.stakeAmount.val = k.stakeAmount.val - slashAmount.val ∧
        treasury env' - treasury final + secondaryReward.val = slashAmount.val := by
  intro start final
  refine ⟨?_, fun D slashAmount secondaryReward env' hok =>
    applySlash_splits (wellFormed_run host .debug tokens ledgerSequence actions) hok⟩
  have hrun : totalStake final + treasury final = totalStake start + treasury start +
      (traceSum (step host .debug) (registeredStake host .debug) start actions -
        traceSum (step host .debug) (returnedReward host .debug) start actions) := by
    rw [← traceSum_sub]
    exact run_eq_add_traceSum (v := fun env => totalStake env + treasury env)
      (wellFormed_deployed tokens ledgerSequence) (fun _ a h => h.step a)
      (fun _ a h => owed_step h a) actions
  have hstart : totalStake start + treasury start = 0 := rfl
  omega

/-! ## The cost of an execution -/

/-- The drip list called for the task leaves the balance of the contract in `token` alone. -/
def DripKeepsBalance (host : Host Address TokenState) (inv : Invocation Address TokenState)
    (env : Env Address TokenState) (taskId : TaskId) (token : Address) : Prop :=
  ∀ task st, env.tasks.lookup taskId = some task →
    inv.distributeWaveSplits task.targetDripList env.tokens = some st →
    host.token.balance st token host.currentContractAddress =
      host.token.balance env.tokens token host.currentContractAddress

theorem secondaryRewardOf_nonneg {s : Int} (h : 0 ≤ s) : 0 ≤ secondaryRewardOf s :=
  Int.tdiv_nonneg (Int.tdiv_nonneg (by omega) (by omega)) (by omega)

theorem treasuryPortionOf_nonneg {s : Int} (h : 0 ≤ s) : 0 ≤ treasuryPortionOf s := by
  have hslash : 0 ≤ (s * 5).tdiv 100 := Int.tdiv_nonneg (by omega) (by omega)
  have hq := MachineInt.tdiv_spec_of_nonneg hslash (b := 2) (by omega)
  unfold treasuryPortionOf secondaryRewardOf
  omega

theorem graceReward_nonneg (task : ExecutionTask Address)
    (hstakes : FiniteMap.All (fun k => 0 ≤ k.stakeAmount.val) env.keepers) :
    0 ≤ graceReward env task := by
  unfold graceReward
  split
  · split
    · rename_i k hk
      exact secondaryRewardOf_nonneg (hstakes _ k hk)
    · exact le_refl 0
  · exact le_refl 0

/-- A successful execution by a caller other than the contract lowers the surplus by exactly the
micro reward, in every region. So the surplus stays non-negative exactly when it covers that
reward. -/
theorem surplus_execution (host : Host Address TokenState) (p : Profile)
    (inv : Invocation Address TokenState) (env : Env Address TokenState) (taskId : TaskId)
    (caller token : Address) (h : WellFormed env)
    (hstakes : FiniteMap.All (fun k => 0 ≤ k.stakeAmount.val) env.keepers)
    (htoken : env.nativeToken = some token)
    (hexact : ∀ task, env.tasks.lookup taskId = some task → ExactGrace p env task)
    (hdrip : DripKeepsBalance host inv env taskId token)
    (hok : Succeeds host p inv (.executeDripSplit taskId caller) env) :
    let env' := step host p env (.call inv (.executeDripSplit taskId caller))
    ∃ task, env.tasks.lookup taskId = some task ∧
      (caller ≠ host.currentContractAddress →
        surplus host env' token = surplus host env token - task.microRewardPerRun.val) ∧
      (0 ≤ surplus host env token → (0 ≤ surplus host env' token ↔
        caller = host.currentContractAddress ∨
          task.microRewardPerRun.val ≤ surplus host env token)) := by
  intro env'
  obtain ⟨task, htask, -, hexec⟩ := executes_of_succeeds hok
  obtain ⟨token', drip, htoken', hcall, hbalance, howed⟩ := hexec.accounting h (hexact task htask)
  rw [htoken] at htoken'
  cases htoken'
  rw [hdrip task drip htask hcall] at hbalance
  have hreward := graceReward_nonneg task hstakes
  rw [max_eq_left hreward] at hbalance
  have howed' : totalStake env' + treasury env' =
    totalStake env + treasury env - graceReward env task := howed
  have hsurplus : surplus host env' token = surplus host env token + graceReward env task -
      paidOut host caller (task.microRewardPerRun.val + graceReward env task) := by
    unfold surplus
    rw [hbalance]
    unfold contractBalance
    omega
  refine ⟨task, htask, ?_, ?_⟩
  · intro hne
    rw [hsurplus, paidOut, if_neg hne]
    omega
  · intro hcovered
    rw [hsurplus, paidOut]
    by_cases hself : caller = host.currentContractAddress
    · rw [if_pos hself]
      exact iff_of_true (by omega) (Or.inl hself)
    · rw [if_neg hself]
      constructor
      · intro hnonneg
        exact Or.inr (by omega)
      · rintro (hself' | hmicro)
        · exact absurd hself' hself
        · omega

/-- A contract that holds exactly its collateral, with a task due. -/
def sampleFunded (balance : TokenLedger Nat) : Env Nat (TokenLedger Nat) :=
  run (step sampleHost .debug) (deployed balance 0)
    [.call sampleInvocation (.initializeContract 2 1 1),
      .call sampleInvocation (.registerKeeper 3 400),
      .call sampleInvocation (.registerKeeper 4 600),
      .call sampleInvocation (.provisionTask 5 10 30 3), .closeLedger 11]

/-- With no surplus, a secondary execution is paid out of the collateral. -/
theorem surplus_negative_after_execution :
    let env := sampleFunded (sampleTokens 1000)
    let taskId := sampleSha256 (taskSeed 0 0)
    WellFormed env ∧ FiniteMap.All (fun k => 0 ≤ k.stakeAmount.val) env.keepers ∧
      0 ≤ treasury env ∧ 0 ≤ surplus sampleHost env 1 ∧
      DripKeepsBalance sampleHost sampleInvocation env taskId 1 ∧
      Succeeds sampleHost .debug sampleInvocation (.executeDripSplit taskId 4) env ∧
      ¬ 0 ≤ surplus sampleHost
        (step sampleHost .debug env (.call sampleInvocation (.executeDripSplit taskId 4))) 1 := by
  refine ⟨wellFormed_run _ _ _ _ _, by decide +kernel, by decide +kernel, by decide +kernel, ?_,
    by decide +kernel, by decide +kernel⟩
  intro task st _ hst
  cases hst
  rfl

/-- With a surplus of 50, the same execution leaves a surplus of 20. -/
theorem surplus_execution_sample :
    let env := sampleFunded (sampleTokens 1050)
    let taskId := sampleSha256 (taskSeed 0 0)
    ∃ task, env.tasks.lookup taskId = some task ∧
      surplus sampleHost
          (step sampleHost .debug env (.call sampleInvocation (.executeDripSplit taskId 4))) 1 =
        surplus sampleHost env 1 - task.microRewardPerRun.val := by
  intro env taskId
  obtain ⟨task, htask, hcost, -⟩ := surplus_execution sampleHost .debug sampleInvocation env taskId
    4 1 (wellFormed_run _ _ _ _ _) (by decide +kernel) (by decide +kernel)
    (fun task _ => exactGrace_debug env task) (fun _ _ _ hst => by cases hst; rfl)
    (by decide +kernel)
  exact ⟨task, htask, hcost (by decide)⟩

/-! ## Collateral backing -/

/-- The contract holds, in its native token, all stakes and the treasury. -/
def Backed (host : Host Address TokenState) (env : Env Address TokenState) : Prop :=
  ∀ token ∈ env.nativeToken, totalStake env + treasury env ≤ contractBalance host env token

instance (host : Host Address TokenState) (env : Env Address TokenState) :
    Decidable (Backed host env) :=
  inferInstanceAs (Decidable (∀ token ∈ env.nativeToken,
    totalStake env + treasury env ≤ contractBalance host env token))

/-- The reward of an execution is covered by the surplus, and the called drip list takes no tokens
from the contract. -/
def CoveredExecution (host : Host Address TokenState) (p : Profile)
    (inv : Invocation Address TokenState) (env : Env Address TokenState) (token : Address)
    (task : ExecutionTask Address) : Prop :=
  ExactGrace p env task ∧
    (∀ st ∈ inv.distributeWaveSplits task.targetDripList env.tokens,
      contractBalance host env token ≤
        (host.token.balance st token host.currentContractAddress).val) ∧
    task.microRewardPerRun.val - min (graceReward env task) 0 ≤ surplus host env token

instance (host : Host Address TokenState) (p : Profile) (inv : Invocation Address TokenState)
    (env : Env Address TokenState) (token : Address) (task : ExecutionTask Address) :
    Decidable (CoveredExecution host p inv env token task) :=
  inferInstanceAs (Decidable (ExactGrace p env task ∧
    (∀ st ∈ inv.distributeWaveSplits task.targetDripList env.tokens,
      contractBalance host env token ≤
        (host.token.balance st token host.currentContractAddress).val) ∧
    task.microRewardPerRun.val - min (graceReward env task) 0 ≤ surplus host env token))

/-- The tokens behind a step are there before it: the native token chosen by an initialisation
covers what is already owed, a new stake is covered by the surplus, and so is the reward of an
execution. -/
def Covered (host : Host Address TokenState) (p : Profile) (env : Env Address TokenState) :
    Action Address TokenState → Prop
  | .call inv (.initializeContract admin nativeToken _) =>
      env.admin = none → inv.authorized admin = true →
        totalStake env + treasury env ≤ contractBalance host env nativeToken
  | .call inv (.registerKeeper keeper stakeAmount) =>
      Registrable inv env keeper stakeAmount →
        ∀ token ∈ env.nativeToken, stakeAmount.val ≤ surplus host env token
  | .call inv (.executeDripSplit taskId caller) =>
      ∀ task ∈ env.tasks.lookup taskId, admitted host inv env task caller = true →
        ∀ token ∈ env.nativeToken, CoveredExecution host p inv env token task
  | _ => True

instance (host : Host Address TokenState) (p : Profile) (env : Env Address TokenState) :
    (action : Action Address TokenState) → Decidable (Covered host p env action)
  | .call inv (.initializeContract admin nativeToken _) =>
      inferInstanceAs (Decidable (env.admin = none → inv.authorized admin = true →
        totalStake env + treasury env ≤ contractBalance host env nativeToken))
  | .call inv (.registerKeeper keeper stakeAmount) =>
      inferInstanceAs (Decidable (Registrable inv env keeper stakeAmount →
        ∀ token ∈ env.nativeToken, stakeAmount.val ≤ surplus host env token))
  | .call inv (.executeDripSplit taskId caller) =>
      inferInstanceAs (Decidable (∀ task ∈ env.tasks.lookup taskId,
        admitted host inv env task caller = true →
          ∀ token ∈ env.nativeToken, CoveredExecution host p inv env token task))
  | .call _ (.getKeeper _) => isTrue trivial
  | .call _ (.provisionTask _ _ _ _) => isTrue trivial
  | .call _ (.getTask _) => isTrue trivial
  | .closeLedger _ => isTrue trivial
  | .transfer _ _ _ _ => isTrue trivial

/-- A covered step keeps the collateral backed. -/
theorem backed_step {action : Action Address TokenState} (h : WellFormed env)
    (hcovered : Covered host p env action) (hb : Backed host env) :
    Backed host (step host p env action) := by
  have heffect := step_effect host p env action
  generalize step host p env action = env' at heffect
  intro token htoken
  cases heffect with
  | idle => exact hb token htoken
  | initialized inv admin nativeToken minKeeperStake _ hadmin hauth =>
      cases htoken
      exact hcovered hadmin hauth
  | registered inv keeper stakeAmount _ hauth hmin hnew =>
      have hsurplus := hcovered ⟨hauth, hmin, hnew⟩ token htoken
      have htotal := totalStake_registered stakeAmount hnew
      have htreasury : treasury (registered env keeper stakeAmount) = treasury env := rfl
      have hbalance : contractBalance host (registered env keeper stakeAmount) token =
        contractBalance host env token := rfl
      unfold surplus at hsurplus
      omega
  | provisioned => exact hb token htoken
  | executed inv taskId caller task env' _ htask hauth hexec =>
      have htoken' : env.nativeToken = some token := hexec.instance_eq.2.2.1 ▸ htoken
      obtain ⟨hexact, hdrip, hmicro⟩ :=
        hcovered task htask (hexec.admitted hauth) token htoken'
      -- The secondary reward was part of what is owed, so only the micro reward is new.
      obtain ⟨token', drip, htoken'', hcall, hbalance, howed⟩ := hexec.accounting h hexact
      rw [htoken'] at htoken''
      cases htoken''
      have hkept := hdrip drip hcall
      have hpos := h.microReward_pos htask
      unfold surplus at hmicro
      rw [hbalance, howed, paidOut]
      split <;> omega
  | closed => exact hb token htoken
  | transferred token' src dst amount tokens hsrc htransfer =>
      -- A transfer between others can only bring tokens.
      exact (hb token htoken).trans
        (host.token.balance_le_of_transfer htransfer (Ne.symm hsrc) token)

/-- In every run whose steps are all covered, the collateral is backed in every state. -/
theorem backed_of_covered (host : Host Address TokenState) (p : Profile) (tokens : TokenState)
    (ledgerSequence : U32) (actions : List (Action Address TokenState))
    (hcovered : ∀ r ∈ trace (step host p) (deployed tokens ledgerSequence) actions,
      Covered host p r.1 r.2) :
    Backed host (run (step host p) (deployed tokens ledgerSequence) actions) := by
  have hboth := run_induction_of_trace (P := fun env => WellFormed env ∧ Backed host env)
    ⟨wellFormed_deployed tokens ledgerSequence, fun _ htoken => nomatch htoken⟩
    (fun env action hc h => ⟨h.1.step action, backed_step h.1 hc h.2⟩) actions hcovered
  exact hboth.2

/-- Registering a keeper brings no tokens: after an initialisation and a registration the stake is
owed by a contract without a balance. -/
theorem not_backed_of_registration :
    ¬ Backed sampleHost (run (step sampleHost .debug) (deployed (sampleTokens 0) 0)
      [.call sampleInvocation (.initializeContract 2 1 10000000),
        .call sampleInvocation (.registerKeeper 3 10000000)]) := by
  decide +kernel

/-- A run that registers two funded keepers and executes a task twice stays backed. -/
theorem backed_of_covered_sample :
    Backed sampleHost (run (step sampleHost .debug) (deployed (sampleTokens 1000) 0)
      [.call sampleInvocation (.initializeContract 2 1 1),
        .call sampleInvocation (.registerKeeper 3 400),
        .call sampleInvocation (.registerKeeper 4 500),
        .call sampleInvocation (.provisionTask 5 10 30 3), .closeLedger 10,
        .call sampleInvocation (.executeDripSplit (sampleSha256 (taskSeed 0 0)) 3),
        .closeLedger 21,
        .call sampleInvocation (.executeDripSplit (sampleSha256 (taskSeed 0 0)) 4)]) :=
  backed_of_covered sampleHost .debug (sampleTokens 1000) 0 _ (by decide +kernel)

end ChronosKeeper.Anchor
