import ChronosKeeper.Anchor.Windows
import ChronosKeeper.Anchor.Updates
import ChronosKeeper.Anchor.Arbitration

/-!
# When an execution succeeds

For a task whose drip list has no part in the token balances, `Executable` collects the conditions
under which a call executes it, all on the state before the call. They are exact wherever every
stake is positive (`succeeds_iff`). An execution then lowers the balance of the contract by
`costOf`, to the credit of the caller, and moves no other balance (`Executes.paid`).

Overflow aborts.
-/

set_option autoImplicit false

namespace ChronosKeeper.Anchor

open ChronosKeeper.Foundations

variable {Address TokenState : Type} [DecidableEq Address]

/-- The records are well formed and every stake is positive. -/
structure Staked (env : Env Address TokenState) : Prop where
  wellFormed : WellFormed env
  stakes : FiniteMap.All (fun k => 1 ≤ k.stakeAmount.val) env.keepers

/-- A call of the drip list returns whatever the token balances are, or fails whatever they are,
and it leaves them alone. -/
structure InertDrip (host : Host Address TokenState) (inv : Invocation Address TokenState)
    (targetDripList : Address) : Prop where
  returns : ∀ st st', (inv.distributeWaveSplits targetDripList st).isSome =
    (inv.distributeWaveSplits targetDripList st').isSome
  balances : ∀ st st', inv.distributeWaveSplits targetDripList st = some st' →
    ∀ token holder, host.token.balance st' token holder = host.token.balance st token holder

/-- What an execution of the task costs the contract. -/
def costOf (env : Env Address TokenState) (task : ExecutionTask Address) : Int :=
  task.microRewardPerRun.val + graceReward env task

/-- Everything that has to hold for the caller to execute the stored task. -/
structure Executable (host : Host Address TokenState) (inv : Invocation Address TokenState)
    (env : Env Address TokenState) (taskId : TaskId) (task : ExecutionTask Address)
    (caller : Address) : Prop where
  stored : env.tasks.lookup taskId = some task
  authorized : inv.authorized caller = true
  drip : (inv.distributeWaveSplits task.targetDripList env.tokens).isSome = true
  passes : PassesArbitration env task caller
  fits : ArithmeticFits env task caller
  covered : ∀ token, env.nativeToken = some token →
    costOf env task ≤ contractBalance host env token

variable {host : Host Address TokenState} {inv : Invocation Address TokenState}
  {env env' : Env Address TokenState} {taskId : TaskId} {task : ExecutionTask Address}
  {caller : Address}

/-! ## Executions -/

namespace Executes

theorem staked (hexec : Executes host .debug inv env taskId task caller env') (h : Staked env)
    (htask : env.tasks.lookup taskId = some task) : Staked env' where
  wellFormed := h.wellFormed.executes htask hexec
  stakes := hexec.all_keepers h.stakes kept_pos.executed
    fun _ k a _ hformula => kept_pos.slashed k a hformula

/-- An execution has passed the arbitration. -/
theorem passes (hexec : Executes host .debug inv env taskId task caller env')
    (hauth : inv.authorized caller = true) : PassesArbitration env task caller := by
  have hadmitted := hexec.admitted hauth
  unfold Anchor.admitted at hadmitted
  rw [Bool.and_eq_true, Bool.and_eq_true] at hadmitted
  exact Option.isNone_iff_eq_none.1 hadmitted.1.2

/-- Nothing has overflowed on the way. -/
theorem fits (hexec : Executes host .debug inv env taskId task caller env') (h : WellFormed env)
    (htask : env.tasks.lookup taskId = some task) : ArithmeticFits env task caller where
  schedule := by
    obtain ⟨next, hnext, -⟩ := hexec.lookup_tasks h htask
    exact Profile.inRange_of_fit_debug hnext
  counter k hk := by
    obtain ⟨kc, hkc, hfit⟩ := hexec.counter_fits h
    rw [Option.mem_def, hkc] at hk
    cases hk
    exact hfit
  slash hin k hk := by
    cases hexec with
    | designated d hledger => exact absurd hin (not_inGrace_of_eq hledger)
    | postGrace elapsed d hgrace => exact absurd hin (not_inGrace_of_lt hgrace)
    | grace k' a t d st _ _ _ _ hk' _ hformula htreasury =>
        rw [Option.mem_def, hk'] at hk
        cases hk
        have hslash := isSlash_of_slashFormula (Or.inl rfl) hformula
        have hsum : IntTy.i128.InRange (treasury env + a.treasuryPortion.val) :=
          Profile.inRange_of_fit_debug htreasury
        rw [hslash.treasuryPortion_eq] at hsum
        exact ⟨inRange_of_slashFormula_debug hformula, hsum⟩

end Executes

/-- The price of an execution is its cost. -/
theorem priceOf_eq_costOf {k : Keeper Address} (hs : 0 ≤ k.stakeAmount.val)
    (hk : env.keepers.lookup task.designatedKeeper = some k) :
    priceOf env task k = costOf env task := by
  have hslash : 0 ≤ k.stakeAmount.val * 5 := by omega
  unfold priceOf costOf
  by_cases hin : InGrace env task
  · rw [if_pos hin, graceReward_of_inGrace hin hk, secondaryRewardOf,
      Int.tdiv_eq_ediv_of_nonneg hslash, Int.tdiv_eq_ediv_of_nonneg (by omega)]
  · rw [if_neg hin, graceReward_of_not_inGrace hin]

omit [DecidableEq Address] in
theorem dripReturns_of_inert (hdrip : InertDrip host inv task.targetDripList)
    (hsome : (inv.distributeWaveSplits task.targetDripList env.tokens).isSome = true) :
    DripReturns host inv env task := by
  obtain ⟨st, hst⟩ := Option.isSome_iff_exists.1 hsome
  exact ⟨st, hst, fun token => hdrip.balances _ st hst token _⟩

/-- An executable task whose drip list returns ends as its region decides. -/
theorem result_of_fits (h : Staked env) (hcaller : caller ≠ host.currentContractAddress)
    (hauth : inv.authorized caller = true) (htask : env.tasks.lookup taskId = some task)
    (hdrip : DripReturns host inv env task) (hfits : ArithmeticFits env task caller) :
    ∃ token, env.nativeToken = some token ∧
      (executeDripSplit host .debug inv taskId caller).result env =
        (regionOf task.nextAllowedExecution.val env.ledgerSequence.val).verdict
          (decide (caller = task.designatedKeeper)) (isRegistered env caller)
          (costOf env task) (contractBalance host env token) := by
  obtain ⟨token, htoken⟩ := h.wellFormed.configured htask
  obtain ⟨k, hk⟩ := h.wellFormed.designated htask
  have hpos : 1 ≤ k.stakeAmount.val := h.stakes _ k hk
  have hs : 0 ≤ k.stakeAmount.val := by omega
  have hne : FiniteMap.All (fun k => k.stakeAmount ≠ 0) env.keepers := by
    intro a k hk hzero
    have hposk : 1 ≤ k.stakeAmount.val := h.stakes a k hk
    have hval : k.stakeAmount.val = 0 := MachineInt.eq_iff.1 hzero
    omega
  have hdrips : ∀ t, env.tasks.lookup taskId = some t → DripReturns host inv env t := by
    intro t ht
    rw [htask] at ht
    cases ht
    exact hdrip
  refine ⟨token, htoken, ?_⟩
  rw [result_executeDripSplit h.wellFormed hne hauth hcaller hdrips,
    windowResult_of_fits .debug htask htoken hk hs hfits, priceOf_eq_costOf hs hk]

theorem executable_of_executes (h : Staked env) (hcaller : caller ≠ host.currentContractAddress)
    (hauth : inv.authorized caller = true) (htask : env.tasks.lookup taskId = some task)
    (hdrip : InertDrip host inv task.targetDripList)
    (hexec : Executes host .debug inv env taskId task caller env') :
    Executable host inv env taskId task caller := by
  have hfits := hexec.fits h.wellFormed htask
  have hpasses := hexec.passes hauth
  have hsome : (inv.distributeWaveSplits task.targetDripList env.tokens).isSome = true := by
    cases hexec with
    | designated d _ _ hd => exact Option.isSome_iff_exists.2 ⟨_, hd.drip⟩
    | grace k a t d st _ _ _ _ _ _ _ _ hd => exact Option.isSome_iff_exists.2 ⟨_, hd.drip⟩
    | postGrace elapsed d _ _ _ hd => exact Option.isSome_iff_exists.2 ⟨_, hd.drip⟩
  refine ⟨htask, hauth, hsome, hpasses, hfits, ?_⟩
  obtain ⟨token, htoken, hresult⟩ := result_of_fits h hcaller hauth htask
    (dripReturns_of_inert hdrip hsome) hfits
  intro token' htoken'
  rw [htoken] at htoken'
  cases htoken'
  -- The call has succeeded, so the price was not more than the balance.
  have hout := outcome_executeDripSplit_eq_ok (u := ()).2 ⟨task, htask, hauth, hexec⟩
  rw [Tx.result_of_ok hout] at hresult
  unfold Region.verdict at hresult
  unfold PassesArbitration at hpasses
  rw [hpasses] at hresult
  by_contra hpoor
  simp only [if_neg hpoor] at hresult
  cases hresult

theorem succeeds_of_executable (h : Staked env) (hcaller : caller ≠ host.currentContractAddress)
    (hdrip : InertDrip host inv task.targetDripList)
    (hexecutable : Executable host inv env taskId task caller) :
    Succeeds host .debug inv (.executeDripSplit taskId caller) env := by
  obtain ⟨token, htoken, hresult⟩ := result_of_fits h hcaller hexecutable.authorized
    hexecutable.stored (dripReturns_of_inert hdrip hexecutable.drip) hexecutable.fits
  have hpasses := hexecutable.passes
  unfold PassesArbitration at hpasses
  unfold Region.verdict at hresult
  simp only [hpasses, if_pos (hexecutable.covered token htoken)] at hresult
  refine ⟨.unit, ?_⟩
  unfold invoke
  rw [Tx.commit_fst, Call.code, Tx.result_map, hresult]
  rfl

/-- A call succeeds exactly when it executes a task that is executable. -/
theorem succeeds_iff (h : Staked env) (hcaller : caller ≠ host.currentContractAddress)
    (hdrip : ∀ t, env.tasks.lookup taskId = some t → InertDrip host inv t.targetDripList) :
    Succeeds host .debug inv (.executeDripSplit taskId caller) env ↔
      ∃ task, Executable host inv env taskId task caller := by
  constructor
  · intro hok
    obtain ⟨task, htask, hauth, hexec⟩ := executes_of_succeeds hok
    exact ⟨task, executable_of_executes h hcaller hauth htask (hdrip task htask) hexec⟩
  · rintro ⟨task, hexecutable⟩
    exact succeeds_of_executable h hcaller (hdrip task hexecutable.stored) hexecutable

/-- An execution pays its cost to the caller, and no other balance changes. -/
theorem Executes.paid (hexec : Executes host .debug inv env taskId task caller env')
    (h : Staked env) (hcaller : caller ≠ host.currentContractAddress)
    (htask : env.tasks.lookup taskId = some task)
    (hdrip : InertDrip host inv task.targetDripList) {token : Address}
    (htoken : env.nativeToken = some token) :
    Paid host token caller (costOf env task) env.tokens env'.tokens := by
  have hkeeps : DripKeepsBalances host inv env task := fun st hst => hdrip.balances _ st hst
  obtain ⟨next, k, total, token', heffect⟩ := effect_of_executes h.wellFormed h.stakes hcaller
    hkeeps htask hexec
  have hsame := heffect.nativeToken
  rw [htoken] at hsame
  cases hsame
  by_cases hin : InGrace env task
  · obtain ⟨-, kd, kd', hgrace⟩ := heffect.grace hin
    have hpos : 1 ≤ kd.stakeAmount.val := h.stakes _ kd hgrace.designated
    have hcost : costOf env task =
        task.microRewardPerRun.val + kd.stakeAmount.val * 5 / 100 / 2 := by
      rw [← priceOf_eq_costOf (by omega) hgrace.designated, priceOf, if_pos hin]
    rw [hcost]
    exact hgrace.paid
  · have hcost : costOf env task = task.microRewardPerRun.val := by
      rw [costOf, graceReward_of_not_inGrace hin, add_zero]
    rw [hcost]
    exact (heffect.ordinary hin).paid

end ChronosKeeper.Anchor
