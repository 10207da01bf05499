import ChronosKeeper.Anchor.Effects

/-!
# Window arbitration

The result of an execution call, for every caller and every ledger. The region turns the caller
away, or `Settlement.result` says what becomes of the call: the slash arithmetic, the micro reward,
the bookkeeping and the secondary reward are settled in this order. `window_arbitration` says that
the contract decides exactly like this wherever the minimum stake is positive; the remaining errors
of the code cannot occur there.

A designated keeper without stake, possible only where the minimum stake is not positive, fails
every call in the grace period (`zero_stake_blocks`).
-/

set_option autoImplicit false

namespace ChronosKeeper.Anchor

open ChronosKeeper.Foundations

/-! ## Settlement -/

/-- What decides the result of an admitted call. -/
structure Settlement where
  /-- The balance of the contract. -/
  balance : Int
  microReward : Int
  /-- The secondary reward, or `none` if the slash arithmetic aborts. -/
  secondaryReward : Option Int
  /-- The schedule of the task and the counter of the caller can be advanced. -/
  advances : Bool

/-- The balance has to cover the micro reward before the bookkeeping, and both rewards after it. -/
def Settlement.result (s : Settlement) : Except Failure Unit :=
  match s.secondaryReward with
  | none => .error .trap
  | some reward =>
      if s.balance < s.microReward then .error (.error .insufficientRewardBalance)
      else if s.advances = false then .error .trap
      else if s.balance < s.microReward + max reward 0 then
        .error (.error .insufficientRewardBalance)
      else .ok ()

/-- The result of a call in a region. -/
def Region.result (region : Region) (isDesignated isRegistered : Bool) (s : Settlement) :
    Except Failure Unit :=
  match region.refusal isDesignated isRegistered with
  | some e => .error (.error e)
  | none => s.result

/-- The result of a call in a region, where only the price decides about an admitted caller. -/
def Region.verdict (region : Region) (isDesignated isRegistered : Bool) (price balance : Int) :
    Except Failure Unit :=
  match region.refusal isDesignated isRegistered with
  | some e => .error (.error e)
  | none => if price ≤ balance then .ok () else .error (.error .insufficientRewardBalance)

/-- A settlement is decided by the price alone exactly when the bookkeeping does not stop it and
the reward asks for what the price asks. -/
theorem Settlement.result_eq_iff {s : Settlement} {reward price : Int}
    (hreward : s.secondaryReward = some reward) :
    (s.result = if price ≤ s.balance then .ok () else .error (.error .insufficientRewardBalance)) ↔
      (s.microReward ≤ s.balance → s.advances = true) ∧
        (s.microReward + max reward 0 ≤ s.balance ↔ price ≤ s.balance) := by
  have hnonneg : 0 ≤ max reward 0 := le_max_right reward 0
  unfold Settlement.result
  rw [hreward]
  by_cases hmicro : s.balance < s.microReward
  · -- both sides say that the price is not covered
    have hpoor : ¬ s.microReward + max reward 0 ≤ s.balance := by omega
    simp only [hmicro, if_true, not_le.2 hmicro, false_implies, true_and, hpoor, false_iff]
    by_cases hprice : price ≤ s.balance
    · simp only [hprice, if_true, reduceCtorEq, not_true]
    · simp only [hprice, if_false, not_false_eq_true]
  · simp only [hmicro, if_false, not_lt.1 hmicro, true_implies]
    cases hadvances : s.advances with
    | false =>
        -- a trap is none of the two verdicts
        by_cases hprice : price ≤ s.balance
        · simp [hprice]
        · simp [hprice]
    | true =>
        by_cases hcovered : s.microReward + max reward 0 ≤ s.balance
        · by_cases hprice : price ≤ s.balance
          · simp [hprice, hcovered]
          · simp [hprice, hcovered]
        · by_cases hprice : price ≤ s.balance
          · simp [hprice, hcovered]
          · simp [hprice, hcovered]

/-- An aborted slash is none of the two verdicts. -/
theorem Settlement.result_ne_of_none {s : Settlement} {price : Int}
    (hreward : s.secondaryReward = none) :
    s.result ≠ if price ≤ s.balance then .ok () else .error (.error .insufficientRewardBalance) := by
  unfold Settlement.result
  rw [hreward]
  by_cases hprice : price ≤ s.balance
  · simp only [hprice, if_true, ne_eq, reduceCtorEq, not_false_eq_true]
  · simp only [hprice, if_false, ne_eq, Except.error.injEq, reduceCtorEq, not_false_eq_true]

/-- When nothing aborts, the two checks of the balance amount to one. -/
theorem Settlement.result_of_advances {balance microReward reward : Int} (h0 : 0 ≤ reward) :
    Settlement.result { balance, microReward, secondaryReward := some reward, advances := true } =
      if microReward + reward ≤ balance then .ok ()
      else .error (.error .insufficientRewardBalance) := by
  apply (Settlement.result_eq_iff rfl).2
  rw [max_eq_left h0]
  exact ⟨fun _ => rfl, Iff.rfl⟩

/-! ## The state decides -/

variable {Address TokenState : Type} [DecidableEq Address]

/-- The secondary reward that the slash arithmetic of the profile arrives at. -/
def slashReward (p : Profile) (env : Env Address TokenState) (designatedKeeper : Address) :
    Option Int := do
  let keeper ← env.keepers.lookup designatedKeeper
  let amounts ← slashFormula p keeper.stakeAmount
  let _ ← p.add (env.treasuryBalance.getD 0) amounts.treasuryPortion
  return amounts.secondaryReward.val

/-- Whether the schedule of the task and the counter of the caller can be advanced. -/
def advances (p : Profile) (env : Env Address TokenState) (task : ExecutionTask Address)
    (caller : Address) : Bool :=
  (p.add env.ledgerSequence task.executionIntervalLedgers).isSome &&
    ((env.keepers.lookup caller).bind fun keeper => p.add keeper.totalExecutions 1).isSome

/-- The settlement of an execution of the task by the caller at the current ledger. -/
def settlementOf (host : Host Address TokenState) (p : Profile) (env : Env Address TokenState)
    (task : ExecutionTask Address) (caller : Address) : Settlement where
  balance := match env.nativeToken with
    | some token => contractBalance host env token
    | none => 0
  microReward := task.microRewardPerRun.val
  secondaryReward := if InGrace env task then slashReward p env task.designatedKeeper else some 0
  advances := advances p env task caller

/-- The result of an execution call. -/
def windowResult (host : Host Address TokenState) (p : Profile) (env : Env Address TokenState)
    (taskId : TaskId) (caller : Address) : Except Failure Unit :=
  match env.tasks.lookup taskId with
  | none => .error (.error .taskNotFound)
  | some task =>
      (regionOf task.nextAllowedExecution.val env.ledgerSequence.val).result
        (decide (caller = task.designatedKeeper)) (isRegistered env caller)
        (settlementOf host p env task caller)

/-- No arithmetic of an execution of the task by the caller leaves its type. -/
structure ArithmeticFits (env : Env Address TokenState) (task : ExecutionTask Address)
    (caller : Address) : Prop where
  schedule : IntTy.u32.InRange (env.ledgerSequence.val + task.executionIntervalLedgers.val)
  counter : ∀ k ∈ env.keepers.lookup caller, IntTy.u64.InRange (k.totalExecutions.val + 1)
  slash : InGrace env task → ∀ k ∈ env.keepers.lookup task.designatedKeeper,
    IntTy.i128.InRange (k.stakeAmount.val * 5) ∧
      IntTy.i128.InRange (treasury env + treasuryPortionOf k.stakeAmount.val)

/-- The two amounts a slash computes beyond the stake itself: five times the stake, and the treasury
after its portion is credited. -/
def SlashFits (env : Env Address TokenState) (designated : Keeper Address) : Prop :=
  IntTy.i128.InRange (designated.stakeAmount.val * 5) ∧
    IntTy.i128.InRange (treasury env + treasuryPortionOf designated.stakeAmount.val)

/-- The next ledger of the task and the next count of the caller. -/
def AdvanceFits (env : Env Address TokenState) (task : ExecutionTask Address) (caller : Address) :
    Prop :=
  IntTy.u32.InRange (env.ledgerSequence.val + task.executionIntervalLedgers.val) ∧
    ∀ k ∈ env.keepers.lookup caller, IntTy.u64.InRange (k.totalExecutions.val + 1)

instance (env : Env Address TokenState) (designated : Keeper Address) :
    Decidable (SlashFits env designated) :=
  inferInstanceAs (Decidable (_ ∧ _))

instance (env : Env Address TokenState) (task : ExecutionTask Address) (caller : Address) :
    Decidable (AdvanceFits env task caller) :=
  inferInstanceAs (Decidable (_ ∧ ∀ k ∈ env.keepers.lookup caller, _))

/-- The price of an execution: the micro reward, and in the grace period half of five percent of
the stake of the designated keeper, each rounded down. -/
def priceOf (env : Env Address TokenState) (task : ExecutionTask Address)
    (designated : Keeper Address) : Int :=
  task.microRewardPerRun.val + if InGrace env task then designated.stakeAmount.val * 5 / 100 / 2
    else 0

/-- The environment at another ledger. -/
def atLedger (env : Env Address TokenState) (ledgerSequence : U32) : Env Address TokenState :=
  { env with ledgerSequence }

/-- The call of the drip list of the task succeeds and leaves the balances of the contract
alone. -/
def DripReturns (host : Host Address TokenState) (inv : Invocation Address TokenState)
    (env : Env Address TokenState) (task : ExecutionTask Address) : Prop :=
  ∃ st, inv.distributeWaveSplits task.targetDripList env.tokens = some st ∧
    ∀ token, host.token.balance st token host.currentContractAddress =
      host.token.balance env.tokens token host.currentContractAddress

variable {host : Host Address TokenState} {p : Profile} {inv : Invocation Address TokenState}
  {env : Env Address TokenState}

theorem slashReward_eq_some {D : Address} {r : Int} :
    slashReward p env D = some r ↔ ∃ k a treasury, env.keepers.lookup D = some k ∧
      slashFormula p k.stakeAmount = some a ∧
      p.add (env.treasuryBalance.getD 0) a.treasuryPortion = some treasury ∧
      r = a.secondaryReward.val := by
  unfold slashReward
  simp only [Option.bind_eq_bind, Option.bind_eq_some_iff, Option.pure_def, Option.some.injEq]
  constructor
  · rintro ⟨k, hk, a, ha, t, ht, rfl⟩
    exact ⟨k, a, t, hk, ha, ht, rfl⟩
  · rintro ⟨k, a, t, hk, ha, ht, rfl⟩
    exact ⟨k, hk, a, ha, t, ht, rfl⟩

/-- Where the arithmetic fits, the secondary reward is half of five percent of the stake, each
rounded down. -/
theorem slashReward_of_fits (p : Profile) {D : Address} {k : Keeper Address}
    (hk : env.keepers.lookup D = some k) (hs : 0 ≤ k.stakeAmount.val) (hfits : SlashFits env k) :
    slashReward p env D = some (k.stakeAmount.val * 5 / 100 / 2) := by
  obtain ⟨hproduct, htreasury⟩ := hfits
  obtain ⟨a, hformula, hslash⟩ := slashFormula_of_inRange p hproduct
  rw [← hslash.treasuryPortion_eq] at htreasury
  have hadd : p.add (env.treasuryBalance.getD 0) a.treasuryPortion = some ⟨_, htreasury⟩ :=
    p.fit_of_inRange htreasury
  exact slashReward_eq_some.2 ⟨k, a, _, hk, hformula, hadd, (hslash.floor_of_nonneg hs).2.symm⟩

theorem advances_of_fits (p : Profile) {task : ExecutionTask Address} {caller : Address}
    {k : Keeper Address} (hfits : AdvanceFits env task caller)
    (hk : env.keepers.lookup caller = some k) : advances p env task caller = true := by
  obtain ⟨hschedule, hcounters⟩ := hfits
  have hone : ((1 : U64)).val = 1 := by decide
  have hcounter := hcounters k hk
  rw [← hone] at hcounter
  have hnext : p.add env.ledgerSequence task.executionIntervalLedgers = some ⟨_, hschedule⟩ :=
    p.fit_of_inRange hschedule
  have htotal : p.add k.totalExecutions 1 = some ⟨_, hcounter⟩ := p.fit_of_inRange hcounter
  simp only [advances, hnext, hk, Option.bind_some, htotal, Option.isSome_some, Bool.and_self]

omit [DecidableEq Address] in
theorem priceOf_of_inGrace {task : ExecutionTask Address} {k : Keeper Address}
    (hgrace : InGrace env task) :
    priceOf env task k = task.microRewardPerRun.val + k.stakeAmount.val * 5 / 100 / 2 := by
  rw [priceOf, if_pos hgrace]

omit [DecidableEq Address] in
theorem priceOf_of_not_inGrace {task : ExecutionTask Address} {k : Keeper Address}
    (hgrace : ¬ InGrace env task) : priceOf env task k = task.microRewardPerRun.val := by
  rw [priceOf, if_neg hgrace, add_zero]

theorem settlementOf_of_inGrace {task : ExecutionTask Address} {token : Address}
    (hgrace : InGrace env task) (htoken : env.nativeToken = some token) (caller : Address) :
    settlementOf host p env task caller =
      { balance := contractBalance host env token
        microReward := task.microRewardPerRun.val
        secondaryReward := slashReward p env task.designatedKeeper
        advances := advances p env task caller } := by
  unfold settlementOf
  rw [if_pos hgrace, htoken]

theorem settlementOf_of_not_inGrace {task : ExecutionTask Address} {token : Address}
    (hgrace : ¬ InGrace env task) (htoken : env.nativeToken = some token) (caller : Address) :
    settlementOf host p env task caller =
      { balance := contractBalance host env token
        microReward := task.microRewardPerRun.val
        secondaryReward := some 0
        advances := advances p env task caller } := by
  unfold settlementOf
  rw [if_neg hgrace, htoken]

/-! ## Distribution -/

/-- The three ways a distribution to a registered caller ends. -/
theorem outcome_executeDistribution_cases {task : ExecutionTask Address} {caller token : Address}
    {k : Keeper Address} (isSecondary : Bool) (htoken : env.nativeToken = some token)
    (hk : env.keepers.lookup caller = some k) (hmicro : 0 < task.microRewardPerRun.val)
    (hdrip : DripReturns host inv env task) :
    (contractBalance host env token < task.microRewardPerRun.val ∧
      (executeDistribution host p inv task caller isSecondary).outcome env =
        .error (.error .insufficientRewardBalance)) ∨
    (task.microRewardPerRun.val ≤ contractBalance host env token ∧
      advances p env task caller = false ∧
      (executeDistribution host p inv task caller isSecondary).outcome env = .error .trap) ∨
    (task.microRewardPerRun.val ≤ contractBalance host env token ∧
      advances p env task caller = true ∧
      ∃ d, IsDistribution host p inv env task caller d ∧
        host.token.balance d.dripTokens token host.currentContractAddress =
          host.token.balance env.tokens token host.currentContractAddress) := by
  obtain ⟨st, hst, hbalance⟩ := hdrip
  have hinvoke : (invokeDripList inv task.targetDripList).outcome env =
      .ok ((), { env with tokens := st }) := outcome_invokeDripList_eq_ok.2 ⟨st, hst, rfl⟩
  have htokens : ∀ st, ({ env with tokens := st } : Env Address TokenState).nativeToken =
      some token := fun _ => htoken
  rcases lt_or_ge (contractBalance host env token) task.microRewardPerRun.val with hlt | hge
  · have hpoor : (payFromContract host caller task.microRewardPerRun).outcome
        { env with tokens := st } = .error (.error .insufficientRewardBalance) := by
      apply outcome_payFromContract_of_insufficient (htokens st)
      show (host.token.balance st token host.currentContractAddress).val < _
      rw [hbalance]
      exact hlt
    refine Or.inl ⟨hlt, ?_⟩
    unfold executeDistribution
    rw [Tx.outcome_get_bind, Tx.outcome_bind_of_ok hinvoke]
    exact Tx.outcome_bind_of_error hpoor
  · have hcovered : task.microRewardPerRun.val ≤
        (host.token.balance st token host.currentContractAddress).val := by
      rw [hbalance]
      exact hge
    obtain ⟨paid, hpay, hpaid⟩ : ∃ paid,
        IsPayment host token st caller task.microRewardPerRun paid ∧
          (payFromContract host caller task.microRewardPerRun).outcome
            { env with tokens := st } = .ok ((), { env with tokens := paid }) :=
      outcome_payFromContract_of_covered (htokens st) hmicro.le hcovered
    have hfound : ∀ env' : Env Address TokenState, env'.keepers = env.keepers →
        (getKeeper caller).outcome env' = .ok (k, env') := fun env' hsame =>
      outcome_getKeeper_of_some (hsame ▸ hk)
    refine Or.inr ?_
    -- The schedule is advanced before the counter of the caller.
    cases hnext : p.add env.ledgerSequence task.executionIntervalLedgers with
    | none =>
        refine Or.inl ⟨hge, by simp [advances, hnext], ?_⟩
        unfold executeDistribution
        rw [Tx.outcome_get_bind, Tx.outcome_bind_of_ok hinvoke,
          Tx.outcome_bind_of_ok hpaid]
        apply Tx.outcome_bind_of_error
        rw [hnext]
        rfl
    | some next =>
        cases htotal : p.add k.totalExecutions 1 with
        | none =>
            refine Or.inl ⟨hge, by simp [advances, hnext, hk, htotal], ?_⟩
            unfold executeDistribution
            rw [Tx.outcome_get_bind, Tx.outcome_bind_of_ok hinvoke,
              Tx.outcome_bind_of_ok hpaid,
              Tx.outcome_bind_of_ok (outcome_arith_eq_ok.2 ⟨hnext, rfl⟩),
              Tx.outcome_bind_of_ok (outcome_updateTask _ _), Tx.outcome_bind_of_ok (hfound _ ?_)]
            · apply Tx.outcome_bind_of_error
              rw [htotal]
              rfl
            · rfl
        | some total =>
            exact Or.inr ⟨hge, by simp [advances, hnext, hk, htotal],
              ⟨token, st, paid, next, k, total⟩, ⟨hst, htoken, hpay, hnext, hk, htotal⟩,
              hbalance token⟩

/-- Without a slash a distribution settles the micro reward alone. -/
theorem result_executeDistribution {task : ExecutionTask Address} {caller token : Address}
    {k : Keeper Address} (isSecondary : Bool) (htoken : env.nativeToken = some token)
    (hk : env.keepers.lookup caller = some k) (hmicro : 0 < task.microRewardPerRun.val)
    (hdrip : DripReturns host inv env task) :
    (executeDistribution host p inv task caller isSecondary).result env =
      Settlement.result
        { balance := contractBalance host env token
          microReward := task.microRewardPerRun.val
          secondaryReward := some 0
          advances := advances p env task caller } := by
  unfold Settlement.result
  rcases outcome_executeDistribution_cases (p := p) isSecondary htoken hk hmicro hdrip with
    ⟨hlt, hout⟩ | ⟨hge, hadvances, hout⟩ | ⟨hge, hadvances, d, hd, -⟩
  · rw [Tx.result_of_error hout]
    simp only [if_pos hlt]
  · rw [Tx.result_of_error hout]
    simp only [if_neg (not_lt.2 hge), if_pos hadvances]
  · have hout : (executeDistribution host p inv task caller isSecondary).outcome env =
        .ok ((), distributed env task caller isSecondary d) :=
      outcome_executeDistribution_eq_ok.2 ⟨d, hd, rfl⟩
    rw [Tx.result_of_ok hout]
    have hcovered : ¬ contractBalance host env token < task.microRewardPerRun.val + max 0 0 := by
      rw [max_self, add_zero]
      exact not_lt.2 hge
    simp only [if_neg (not_lt.2 hge), hadvances, Bool.true_eq_false, if_false, if_neg hcovered]

omit [DecidableEq Address] in
/-- The two ways the payment of the secondary reward ends. -/
theorem outcome_paySecondaryReward_cases (host : Host Address TokenState) (caller : Address)
    (reward : I128) {token : Address} (htoken : env.nativeToken = some token) :
    (0 < reward.val ∧ contractBalance host env token < reward.val ∧
      (paySecondaryReward host caller reward).outcome env =
        .error (.error .insufficientRewardBalance)) ∨
    ((0 < reward.val → reward.val ≤ contractBalance host env token) ∧
      ∃ env', (paySecondaryReward host caller reward).outcome env = .ok ((), env')) := by
  unfold paySecondaryReward
  by_cases hpos : reward > 0
  · rw [if_pos hpos]
    have hval : 0 < reward.val := hpos
    rcases lt_or_ge (contractBalance host env token) reward.val with hlt | hge
    · exact Or.inl ⟨hval, hlt, outcome_payFromContract_of_insufficient htoken hlt⟩
    · obtain ⟨st, -, hout⟩ : ∃ st, IsPayment host token env.tokens caller reward st ∧
          (payFromContract host caller reward).outcome env = .ok ((), { env with tokens := st }) :=
        outcome_payFromContract_of_covered htoken hval.le hge
      exact Or.inr ⟨fun _ => hge, _, hout⟩
  · rw [if_neg hpos]
    exact Or.inr ⟨fun hval => absurd hval hpos, env, rfl⟩

/-! ## The grace period -/

/-- After the slash the micro reward and the secondary reward are settled. -/
theorem result_distribution_with_reward {task : ExecutionTask Address} {caller token : Address}
    {k : Keeper Address} (reward : I128) (e : Event Address)
    (hcaller : caller ≠ host.currentContractAddress) (htoken : env.nativeToken = some token)
    (hk : env.keepers.lookup caller = some k) (hmicro : 0 < task.microRewardPerRun.val)
    (hdrip : DripReturns host inv env task) :
    Tx.result
        (do
          executeDistribution host p inv task caller true
          paySecondaryReward host caller reward
          publish e) env =
      Settlement.result
        { balance := contractBalance host env token
          microReward := task.microRewardPerRun.val
          secondaryReward := some reward.val
          advances := advances p env task caller } := by
  unfold Settlement.result
  rcases outcome_executeDistribution_cases (p := p) true htoken hk hmicro hdrip with
    ⟨hlt, hout⟩ | ⟨hge, hstuck, hout⟩ | ⟨hge, hadvanced, d, hd, hbalance⟩
  · rw [Tx.result_bind_of_error hout]
    simp only [if_pos hlt]
  · rw [Tx.result_bind_of_error hout]
    simp only [if_neg (not_lt.2 hge), if_pos hstuck]
  · have hout : (executeDistribution host p inv task caller true).outcome env =
        .ok ((), distributed env task caller true d) :=
      outcome_executeDistribution_eq_ok.2 ⟨d, hd, rfl⟩
    -- The second check reads the balance that the micro reward has left.
    have hpaid : contractBalance host (distributed env task caller true d) token =
        contractBalance host env token - task.microRewardPerRun.val := by
      have hsrc := host.token.transfer_src hd.payment.transfer (Ne.symm hcaller)
      rw [Option.some.inj (hd.token.symm.trans htoken), hbalance] at hsrc
      exact hsrc
    have htoken' : (distributed env task caller true d).nativeToken = some token := htoken
    rw [Tx.result_bind_of_ok hout]
    simp only [if_neg (not_lt.2 hge), hadvanced, Bool.true_eq_false, if_false]
    rcases outcome_paySecondaryReward_cases host caller reward htoken' with
      ⟨hpos, hlt, hpay⟩ | ⟨hpays, env', hpay⟩
    · rw [hpaid] at hlt
      rw [Tx.result_bind_of_error hpay, if_pos]
      rw [max_eq_left hpos.le]
      omega
    · rw [hpaid] at hpays
      rw [Tx.result_bind_of_ok hpay, if_neg]
      · rfl
      · rcases le_or_gt reward.val 0 with hle | hpos
        · rw [max_eq_right hle]
          omega
        · have hle := hpays hpos
          rw [max_eq_left hpos.le]
          omega

/-- An execution by another registered keeper settles the slash of the designated keeper, the
micro reward and the secondary reward. -/
theorem result_executeInGrace (h : WellFormed env) (taskId : TaskId)
    {task : ExecutionTask Address} {caller token : Address} {k kc : Keeper Address}
    (hcaller : caller ≠ host.currentContractAddress) (htoken : env.nativeToken = some token)
    (hne : caller ≠ task.designatedKeeper) (hkc : env.keepers.lookup caller = some kc)
    (hk : env.keepers.lookup task.designatedKeeper = some k) (hz : k.stakeAmount ≠ 0)
    (hmicro : 0 < task.microRewardPerRun.val) (hdrip : DripReturns host inv env task) :
    (executeInGrace host p inv taskId task caller).result env =
      Settlement.result
        { balance := contractBalance host env token
          microReward := task.microRewardPerRun.val
          secondaryReward := slashReward p env task.designatedKeeper
          advances := advances p env task caller } := by
  have hregistered : ¬ isRegistered env caller = false := by
    rw [isRegistered_iff.2 ⟨kc, hkc⟩]
    exact Bool.true_eq_false_eq_False
  unfold executeInGrace
  rw [Tx.result_bind_of_ok (Tx.outcome_reject_of_neg hne _ env),
    Tx.result_bind_of_ok (Tx.outcome_get env),
    Tx.result_bind_of_ok (Tx.outcome_reject_of_neg hregistered _ env)]
  cases hreward : slashReward p env task.designatedKeeper with
  | none =>
      apply Tx.result_bind_of_error
      apply outcome_applySlash_of_abort hk hz
      intro a ha
      by_contra hsome
      obtain ⟨t, ht⟩ := Option.ne_none_iff_exists'.1 hsome
      rw [slashReward_eq_some.2 ⟨k, a, t, hk, ha, ht, rfl⟩] at hreward
      cases hreward
  | some r =>
      obtain ⟨k', a, t, hk', ha, ht, rfl⟩ := slashReward_eq_some.1 hreward
      rw [hk] at hk'
      cases hk'
      have hslash : (applySlash p task.designatedKeeper).outcome env =
          .ok ((a.slashAmount, a.secondaryReward), slashed env task.designatedKeeper k a t) :=
        outcome_applySlash_eq_ok.2 ⟨k, a, t, hk, hz, ha, ht, rfl, rfl⟩
      -- The slash leaves the record of the caller and the balances alone.
      have hsame : (slashed env task.designatedKeeper k a t).keepers.lookup caller =
          env.keepers.lookup caller := lookup_caller_of_slashed h hk hne
      have hadvances : advances p (slashed env task.designatedKeeper k a t) task caller =
          advances p env task caller := by
        unfold advances
        rw [hsame]
        rfl
      have htoken' : (slashed env task.designatedKeeper k a t).nativeToken = some token := htoken
      rw [Tx.result_bind_of_ok hslash, ← hadvances]
      exact result_distribution_with_reward a.secondaryReward
        (.taskSec taskId caller task.designatedKeeper env.ledgerSequence a.slashAmount
          a.secondaryReward task.microRewardPerRun)
        hcaller htoken' (hsame.trans hkc) hmicro hdrip

/-! ## The arbitration -/

theorem result_executeDesignated (h : WellFormed env) {taskId : TaskId}
    {task : ExecutionTask Address} (htask : env.tasks.lookup taskId = some task)
    (caller : Address) (hledger : env.ledgerSequence.val = task.nextAllowedExecution.val)
    (hdrip : DripReturns host inv env task) :
    (executeDesignated host p inv task caller).result env =
      Region.designated.result (decide (caller = task.designatedKeeper)) (isRegistered env caller)
        (settlementOf host p env task caller) := by
  obtain ⟨token, htoken⟩ := h.configured htask
  unfold executeDesignated
  by_cases hcaller : caller = task.designatedKeeper
  · obtain ⟨k, hk⟩ := h.designated htask
    rw [← hcaller] at hk
    rw [Tx.result_bind_of_ok (Tx.outcome_reject_of_neg (not_not.2 hcaller) _ env),
      result_executeDistribution false htoken hk (h.microReward_pos htask) hdrip,
      settlementOf_of_not_inGrace (not_inGrace_of_eq hledger) htoken caller]
    simp only [Region.result, Region.refusal, decide_eq_true hcaller, if_true]
  · rw [Tx.result_bind_of_error (Tx.outcome_reject_of_pos hcaller _ env)]
    simp only [Region.result, Region.refusal, decide_eq_false hcaller, Bool.false_eq_true, if_false]

theorem result_executePostGrace (h : WellFormed env) {taskId : TaskId}
    {task : ExecutionTask Address} (htask : env.tasks.lookup taskId = some task)
    (caller : Address) (hledger : task.nextAllowedExecution.val + 50 < env.ledgerSequence.val)
    (elapsed : U32) (hdrip : DripReturns host inv env task) :
    (executePostGrace host p inv taskId task caller elapsed).result env =
      Region.postGrace.result (decide (caller = task.designatedKeeper)) (isRegistered env caller)
        (settlementOf host p env task caller) := by
  obtain ⟨token, htoken⟩ := h.configured htask
  unfold executePostGrace
  rw [Tx.result_bind_of_ok (Tx.outcome_get env)]
  by_cases hreg : isRegistered env caller = false
  · rw [Tx.result_bind_of_error (Tx.outcome_reject_of_pos hreg _ env), hreg]
    rfl
  · have htrue := eq_true_of_ne_false hreg
    obtain ⟨k, hk⟩ := isRegistered_iff.1 htrue
    -- The published event does not take part in the settlement.
    have htoken' : (missed env taskId elapsed).nativeToken = some token := htoken
    have hdist := result_executeDistribution (p := p) false htoken' hk (h.microReward_pos htask)
      hdrip
    rw [Tx.result_bind_of_ok (Tx.outcome_reject_of_neg hreg _ env), htrue,
      settlementOf_of_not_inGrace (not_inGrace_of_lt hledger) htoken caller]
    exact (Tx.result_bind_of_ok (outcome_publish _ env)).trans hdist

theorem result_executeInGrace_of_task (h : WellFormed env)
    (hstakes : FiniteMap.All (fun k => k.stakeAmount ≠ 0) env.keepers) {taskId : TaskId}
    {task : ExecutionTask Address} (htask : env.tasks.lookup taskId = some task)
    {caller : Address} (hcaller : caller ≠ host.currentContractAddress)
    (hgrace : InGrace env task) (hdrip : DripReturns host inv env task) :
    (executeInGrace host p inv taskId task caller).result env =
      Region.grace.result (decide (caller = task.designatedKeeper)) (isRegistered env caller)
        (settlementOf host p env task caller) := by
  obtain ⟨token, htoken⟩ := h.configured htask
  by_cases hdesignated : caller = task.designatedKeeper
  · unfold executeInGrace
    rw [Tx.result_bind_of_error (Tx.outcome_reject_of_pos hdesignated _ env)]
    simp only [Region.result, Region.refusal, decide_eq_true hdesignated, if_true]
  · cases hreg : isRegistered env caller with
    | false =>
        unfold executeInGrace
        rw [Tx.result_bind_of_ok (Tx.outcome_reject_of_neg hdesignated _ env),
          Tx.result_bind_of_ok (Tx.outcome_get env),
          Tx.result_bind_of_error (Tx.outcome_reject_of_pos hreg _ env)]
        simp only [Region.result, Region.refusal, decide_eq_false hdesignated, Bool.false_eq_true,
          if_false]
    | true =>
        obtain ⟨kc, hkc⟩ := isRegistered_iff.1 hreg
        obtain ⟨k, hk⟩ := h.designated htask
        rw [result_executeInGrace h taskId hcaller htoken hdesignated hkc hk (hstakes _ k hk)
          (h.microReward_pos htask) hdrip, settlementOf_of_inGrace hgrace htoken caller]
        simp only [Region.result, Region.refusal, decide_eq_false hdesignated, Bool.false_eq_true,
          if_false, if_true]

/-- The result of a call, from the shape of the stored records. -/
theorem result_executeDripSplit (h : WellFormed env)
    (hstakes : FiniteMap.All (fun k => k.stakeAmount ≠ 0) env.keepers) {taskId : TaskId}
    {caller : Address} (hauth : inv.authorized caller = true)
    (hcaller : caller ≠ host.currentContractAddress)
    (hdrip : ∀ task, env.tasks.lookup taskId = some task → DripReturns host inv env task) :
    (executeDripSplit host p inv taskId caller).result env =
      windowResult host p env taskId caller := by
  unfold windowResult
  cases htask : env.tasks.lookup taskId with
  | none =>
      unfold executeDripSplit
      rw [Tx.result_bind_of_error (outcome_getTask_of_none htask)]
  | some task =>
      rcases lt_or_ge env.ledgerSequence.val task.nextAllowedExecution.val with hlt | hge
      · -- Before the window the order of the checks does not matter.
        have hregion : regionOf task.nextAllowedExecution.val env.ledgerSequence.val =
            .preWindow := if_pos hlt
        have hearly : env.ledgerSequence < task.nextAllowedExecution := hlt
        unfold executeDripSplit
        rw [Tx.result_bind_of_ok (outcome_getTask_of_some htask),
          Tx.result_bind_of_ok (outcome_requireAuth hauth env),
          Tx.result_bind_of_ok (Tx.outcome_get env),
          Tx.result_bind_of_error (Tx.outcome_reject_of_pos hearly _ env)]
        simp only [hregion, Region.result, Region.refusal]
      · obtain ⟨elapsed, hval, hout⟩ := outcome_executeDripSplit_of_le host p htask hauth hge
        have hzero : elapsed = 0 ↔ elapsed.val = 0 := MachineInt.eq_iff
        have hle50 : elapsed ≤ 50 ↔ elapsed.val ≤ 50 := Iff.rfl
        rw [Tx.result, hout]
        simp only [regionOf, if_neg (not_lt.2 hge)]
        by_cases heq : env.ledgerSequence.val = task.nextAllowedExecution.val
        · rw [if_pos (hzero.2 (by omega)), if_pos heq]
          exact result_executeDesignated h htask caller heq (hdrip task htask)
        · rw [if_neg (fun e => heq (by have := hzero.1 e; omega)), if_neg heq]
          by_cases hle : env.ledgerSequence.val ≤ task.nextAllowedExecution.val + 50
          · rw [if_pos (hle50.2 (by omega)), if_pos hle]
            exact result_executeInGrace_of_task h hstakes htask hcaller ⟨by omega, hle⟩
              (hdrip task htask)
          · rw [if_neg (fun e => hle (by have := hle50.1 e; omega)), if_neg hle]
            exact result_executePostGrace h htask caller (by omega) elapsed (hdrip task htask)

/-- Every admitted caller is registered, the designated keeper among them. -/
theorem registered_of_admitted {D caller : Address} {k : Keeper Address}
    (hk : env.keepers.lookup D = some k) {region : Region}
    (hadmitted : region.refusal (decide (caller = D)) (isRegistered env caller) = none) :
    ∃ kc, env.keepers.lookup caller = some kc := by
  by_cases hcaller : caller = D
  · exact ⟨k, hcaller ▸ hk⟩
  · rw [decide_eq_false hcaller] at hadmitted
    apply isRegistered_iff.1
    cases hreg : isRegistered env caller with
    | true => rfl
    | false =>
        rw [hreg] at hadmitted
        cases region with
        | preWindow => cases hadmitted
        | designated => cases hadmitted
        | grace => cases hadmitted
        | postGrace => cases hadmitted

/-- Where the arithmetic fits, the price decides about an admitted caller. -/
theorem windowResult_of_fits (p : Profile) {taskId : TaskId}
    {task : ExecutionTask Address} {caller token : Address} {k : Keeper Address}
    (htask : env.tasks.lookup taskId = some task) (htoken : env.nativeToken = some token)
    (hk : env.keepers.lookup task.designatedKeeper = some k) (hs : 0 ≤ k.stakeAmount.val)
    (hfits : ArithmeticFits env task caller) :
    windowResult host p env taskId caller =
      (regionOf task.nextAllowedExecution.val env.ledgerSequence.val).verdict
        (decide (caller = task.designatedKeeper)) (isRegistered env caller)
        (priceOf env task k) (contractBalance host env token) := by
  unfold windowResult Region.result Region.verdict
  simp only [htask]
  cases hrefusal : (regionOf task.nextAllowedExecution.val env.ledgerSequence.val).refusal
      (decide (caller = task.designatedKeeper)) (isRegistered env caller) with
  | some e => rfl
  | none =>
      obtain ⟨kc, hkc⟩ := registered_of_admitted hk hrefusal
      have hadvances := advances_of_fits p ⟨hfits.schedule, hfits.counter⟩ hkc
      unfold priceOf
      by_cases hgrace : InGrace env task
      · have hslash : SlashFits env k := hfits.slash hgrace k hk
        rw [settlementOf_of_inGrace hgrace htoken, slashReward_of_fits p hk hs hslash,
          hadvances, if_pos hgrace]
        exact Settlement.result_of_advances (by omega)
      · rw [settlementOf_of_not_inGrace hgrace htoken, hadvances, if_neg hgrace]
        exact Settlement.result_of_advances (le_refl 0)

/-- In a contract with a positive minimum stake, the result of an execution call is that of the
region it falls into: a refusal, or the settlement of an admitted call. Where no arithmetic
overflows, an admitted call succeeds exactly when the balance covers its price. -/
theorem window_arbitration (host : Host Address TokenState) (p : Profile)
    (inv : Invocation Address TokenState) (env : Env Address TokenState) (taskId : TaskId)
    (caller : Address) (ledgerSequence : U32) (hreach : Reachable host p env)
    (hmin : PositiveMinimum env) (hauth : inv.authorized caller = true)
    (hcaller : caller ≠ host.currentContractAddress)
    (hdrip : ∀ task, env.tasks.lookup taskId = some task → DripReturns host inv env task) :
    let now := atLedger env ledgerSequence
    (invoke host p inv (.executeDripSplit taskId caller) now).1 =
        (windowResult host p now taskId caller).map (fun _ => .unit) ∧
      ∀ task, now.tasks.lookup taskId = some task →
        ∃ k token, now.keepers.lookup task.designatedKeeper = some k ∧
          now.nativeToken = some token ∧
          (p = .debug ∨ 0 ≤ k.stakeAmount.val → ArithmeticFits now task caller →
            windowResult host p now taskId caller =
              (regionOf task.nextAllowedExecution.val now.ledgerSequence.val).verdict
                (decide (caller = task.designatedKeeper)) (isRegistered now caller)
                (priceOf now task k) (contractBalance host now token)) := by
  intro now
  have h : WellFormed now := hreach.wellFormed.congr rfl rfl rfl rfl rfl
  have hstakes : FiniteMap.All (fun k => k.stakeAmount ≠ 0) env.keepers :=
    hreach.kept (kept_ne_zero p) hmin
  constructor
  · -- Every error but those of the table is excluded by the invariants.
    have hresult : (executeDripSplit host p inv taskId caller).result now =
        windowResult host p now taskId caller :=
      result_executeDripSplit h hstakes hauth hcaller hdrip
    unfold invoke
    rw [Tx.commit_fst, Call.code, Tx.result_map, hresult]
  · intro task htask
    obtain ⟨k, hk⟩ := h.designated htask
    obtain ⟨token, htoken⟩ := h.configured htask
    refine ⟨k, token, hk, htoken, ?_⟩
    intro hsign hfits
    have hs : 0 ≤ k.stakeAmount.val := by
      rcases hsign with rfl | hs
      · have hpos : 1 ≤ k.stakeAmount.val := hreach.kept kept_pos hmin _ k hk
        omega
      · exact hs
    exact windowResult_of_fits p htask htoken hk hs hfits

/-! ## A designated keeper without stake -/

/-- The execution goes on without a slash: the micro reward is paid, the schedule advances, the
designated keeper and the treasury are left alone and the zero slash is on record. -/
structure SkipsSlash (host : Host Address TokenState) (p : Profile)
    (inv : Invocation Address TokenState) (env : Env Address TokenState) (taskId : TaskId)
    (task : ExecutionTask Address) (caller : Address) : Prop where
  succeeds : Succeeds host p inv (.executeDripSplit taskId caller) env
  paid : ∀ token ∈ env.nativeToken, Paid host token caller task.microRewardPerRun.val env.tokens
    (step host p env (.call inv (.executeDripSplit taskId caller))).tokens
  scheduled : ∀ next, p.add env.ledgerSequence task.executionIntervalLedgers = some next →
    (step host p env (.call inv (.executeDripSplit taskId caller))).tasks.lookup taskId =
      some { task with nextAllowedExecution := next }
  designated : (step host p env (.call inv (.executeDripSplit taskId caller))).keepers.lookup
    task.designatedKeeper = env.keepers.lookup task.designatedKeeper
  treasury : (step host p env (.call inv (.executeDripSplit taskId caller))).treasuryBalance =
    env.treasuryBalance
  event : .zeroSlsh task.designatedKeeper ∈
    (step host p env (.call inv (.executeDripSplit taskId caller))).events

/-- A designated keeper without stake fails every call of its task in the grace period, and the
event of the zero-stake guard is rolled back with the call. -/
theorem zero_stake_blocks (host : Host Address TokenState) (p : Profile)
    (inv : Invocation Address TokenState) (env : Env Address TokenState) (taskId : TaskId)
    (task : ExecutionTask Address) (k : Keeper Address) (caller : Address)
    (htask : env.tasks.lookup taskId = some task)
    (hk : env.keepers.lookup task.designatedKeeper = some k) (hzero : k.stakeAmount = 0)
    (hgrace : InGrace env task) (hauth : inv.authorized caller = true)
    (hne : caller ≠ task.designatedKeeper) (hreg : isRegistered env caller = true) :
    invoke host p inv (.executeDripSplit taskId caller) env =
        (.error (.error .slashOnZeroStake), env) ∧
      ¬ SkipsSlash host p inv env taskId task caller := by
  have hguard : (executeInGrace host p inv taskId task caller).outcome env =
      .error (.error .slashOnZeroStake) := by
    have hregistered : ¬ isRegistered env caller = false := by
      rw [hreg]
      exact Bool.true_eq_false_eq_False
    unfold executeInGrace
    rw [Tx.outcome_bind_of_ok (Tx.outcome_reject_of_neg hne _ env),
      Tx.outcome_get_bind,
      Tx.outcome_bind_of_ok (Tx.outcome_reject_of_neg hregistered _ env)]
    exact Tx.outcome_bind_of_error (outcome_applySlash_of_zero p hk hzero)
  have hcall : (executeDripSplit host p inv taskId caller).outcome env =
      .error (.error .slashOnZeroStake) := by
    obtain ⟨hopen, hend⟩ := hgrace
    obtain ⟨elapsed, hval, hout⟩ := outcome_executeDripSplit_of_le host p htask hauth hopen.le
    have hzero' : elapsed ≠ 0 := by
      intro heq
      have hval0 : elapsed.val = 0 := MachineInt.eq_iff.1 heq
      omega
    have hle50 : elapsed ≤ 50 := by
      show elapsed.val ≤ 50
      omega
    rw [hout, if_neg hzero', if_pos hle50]
    exact hguard
  have hinvoke : invoke host p inv (.executeDripSplit taskId caller) env =
      (.error (.error .slashOnZeroStake), env) := Tx.commit_of_error (Tx.outcome_map_of_error hcall)
  refine ⟨hinvoke, ?_⟩
  intro hskips
  obtain ⟨v, hv⟩ := hskips.succeeds
  rw [hinvoke] at hv
  cases hv

/-- A configured minimum of zero lets a keeper register without stake; the task it is designated
for then fails in its grace period although the contract could pay for it. -/
theorem zero_stake_fails_execution :
    let id := sampleSha256 (taskSeed 0 0)
    let env := run (step sampleHost .debug) (deployed (sampleTokens 1000) 0)
      [.call sampleInvocation (.initializeContract 2 1 0),
        .call sampleInvocation (.registerKeeper 3 0),
        .call sampleInvocation (.registerKeeper 4 500),
        .call sampleInvocation (.provisionTask 5 10 30 3), .closeLedger 11]
    env.tasks.lookup id = some ⟨id, 5, 10, 10, 30, 3⟩ ∧
      env.keepers.lookup 3 = some ⟨3, 0, 0, 0, false⟩ ∧ isRegistered env 4 = true ∧
      InGrace env ⟨id, 5, 10, 10, 30, 3⟩ ∧ 30 ≤ contractBalance sampleHost env 1 ∧
      ¬ SkipsSlash sampleHost .debug sampleInvocation env id ⟨id, 5, 10, 10, 30, 3⟩ 4 := by
  intro id env
  refine ⟨by decide +kernel, by decide +kernel, by decide +kernel, by decide +kernel,
    by decide +kernel, ?_⟩
  intro hskips
  have hfails : ¬ Succeeds sampleHost .debug sampleInvocation (.executeDripSplit id 4) env := by
    decide +kernel
  exact hfails hskips.succeeds

/-- The call fails and leaves the environment as it was. -/
theorem zero_stake_blocks_sample :
    let id := sampleSha256 (taskSeed 0 0)
    let env := run (step sampleHost .debug) (deployed (sampleTokens 1000) 0)
      [.call sampleInvocation (.initializeContract 2 1 0),
        .call sampleInvocation (.registerKeeper 3 0),
        .call sampleInvocation (.registerKeeper 4 500),
        .call sampleInvocation (.provisionTask 5 10 30 3), .closeLedger 11]
    invoke sampleHost .debug sampleInvocation (.executeDripSplit id 4) env =
        (.error (.error .slashOnZeroStake), env) ∧
      ¬ SkipsSlash sampleHost .debug sampleInvocation env id ⟨id, 5, 10, 10, 30, 3⟩ 4 :=
  zero_stake_blocks sampleHost .debug sampleInvocation _ _ ⟨_, 5, 10, 10, 30, 3⟩
    ⟨3, 0, 0, 0, false⟩ 4 (by decide +kernel) (by decide +kernel) rfl (by decide +kernel) rfl
    (by decide) (by decide +kernel)

end ChronosKeeper.Anchor
