import ChronosKeeper.Anchor.Arbitration
import ChronosKeeper.Anchor.Windows

/-!
# The four regions over the integers

`fourRegions` decides about an execution call without any machine arithmetic: the region turns the
caller away, or the call succeeds exactly when the balance of the contract covers its price. The
code computes the price, the treasury, the next ledger and the counter in fixed-width types and
without a guard, so it leaves this decision where one of them is at the end of its type: a debug
build panics, and a release build settles with a wrapped reward.

`window_arbitration_iff` says for every reachable state when a call follows the four regions, by
the condition `SettlesExactly` on the state. Whatever else a call returns is in
`window_arbitration`.
-/

set_option autoImplicit false

namespace ChronosKeeper.Anchor

open ChronosKeeper.Foundations

variable {Address TokenState : Type} [DecidableEq Address]

/-! ## Statements -/

/-- The balance of the contract in the native token, zero where none is configured. -/
def nativeBalance (host : Host Address TokenState) (env : Env Address TokenState) : Int :=
  match env.nativeToken with
  | some token => contractBalance host env token
  | none => 0

/-- The price of an execution of the task; without a record of its designated keeper there is no
secondary reward. -/
def executionPrice (env : Env Address TokenState) (task : ExecutionTask Address) : Int :=
  match env.keepers.lookup task.designatedKeeper with
  | some designated => priceOf env task designated
  | none => task.microRewardPerRun.val

/-- What the four regions decide about an execution call: the region turns the caller away, or the
balance covers the price of the execution or does not. -/
def fourRegions (host : Host Address TokenState) (env : Env Address TokenState) (taskId : TaskId)
    (caller : Address) : Except Failure Unit :=
  match env.tasks.lookup taskId with
  | none => .error (.error .taskNotFound)
  | some task =>
      (regionOf task.nextAllowedExecution.val env.ledgerSequence.val).verdict
        (decide (caller = task.designatedKeeper)) (isRegistered env caller)
        (executionPrice env task) (nativeBalance host env)

/-- The call returns what the four regions decide. -/
def FollowsFourRegions (host : Host Address TokenState) (p : Profile)
    (inv : Invocation Address TokenState) (env : Env Address TokenState) (taskId : TaskId)
    (caller : Address) : Prop :=
  (invoke host p inv (.executeDripSplit taskId caller) env).1 =
    (fourRegions host env taskId caller).map fun _ => .unit

instance (host : Host Address TokenState) (p : Profile) (inv : Invocation Address TokenState)
    (env : Env Address TokenState) (taskId : TaskId) (caller : Address) :
    Decidable (FollowsFourRegions host p inv env taskId caller) :=
  inferInstanceAs (Decidable (_ = _))

/-- Half of five percent of the stake, from the product that is left after it wrapped around. -/
def wrappedReward (stakeAmount : Int) : Int :=
  ((MachineInt.wrap .i128 (stakeAmount * 5)).val.tdiv 100).tdiv 2

/-- The arithmetic of an admitted execution does not keep the balance from deciding: nothing on
the path overflows where an overflow aborts, and the balance does not lie between the two prices
where the product wraps around. -/
def SettlesExactly (p : Profile) (env : Env Address TokenState) (task : ExecutionTask Address)
    (caller : Address) (designated : Keeper Address) (balance : Int) : Prop :=
  match p with
  | .debug =>
      (InGrace env task → SlashFits env designated) ∧
        (task.microRewardPerRun.val ≤ balance → AdvanceFits env task caller)
  | .release =>
      InGrace env task →
        (task.microRewardPerRun.val + max (wrappedReward designated.stakeAmount.val) 0 ≤ balance ↔
          priceOf env task designated ≤ balance)

instance (p : Profile) (env : Env Address TokenState) (task : ExecutionTask Address)
    (caller : Address) (designated : Keeper Address) (balance : Int) :
    Decidable (SettlesExactly p env task caller designated balance) :=
  match p with
  | .debug => inferInstanceAs (Decidable (_ ∧ _))
  | .release => inferInstanceAs (Decidable (InGrace env task → (_ ↔ _)))

variable {host : Host Address TokenState} {p : Profile} {env : Env Address TokenState}

/-! ## The arithmetic of the profiles -/

/-- Where an overflow aborts, the bookkeeping goes through exactly when its sums fit. -/
theorem advances_debug_iff {task : ExecutionTask Address} {caller : Address} {k : Keeper Address}
    (hk : env.keepers.lookup caller = some k) :
    advances .debug env task caller = true ↔ AdvanceFits env task caller := by
  constructor
  · intro hadvances
    unfold advances at hadvances
    rw [Bool.and_eq_true, hk, Option.bind_some] at hadvances
    obtain ⟨hnext, htotal⟩ := hadvances
    obtain ⟨next, hnext⟩ := Option.isSome_iff_exists.1 hnext
    obtain ⟨total, htotal⟩ := Option.isSome_iff_exists.1 htotal
    refine ⟨Profile.inRange_of_fit_debug hnext, ?_⟩
    intro k' hk'
    rw [Option.mem_def, hk] at hk'
    cases hk'
    exact Profile.inRange_of_fit_debug htotal
  · intro hfits
    exact advances_of_fits .debug hfits hk

/-- Where the arithmetic wraps around, nothing stops the bookkeeping. -/
theorem advances_release {task : ExecutionTask Address} {caller : Address} {k : Keeper Address}
    (hk : env.keepers.lookup caller = some k) : advances .release env task caller = true := by
  unfold advances
  rw [hk, Option.bind_some]
  rfl

/-- Where an overflow aborts, a slash whose amounts do not fit is aborted. -/
theorem slashReward_debug_of_not_fits {D : Address} {k : Keeper Address}
    (hk : env.keepers.lookup D = some k) (hfits : ¬ SlashFits env k) :
    slashReward .debug env D = none := by
  cases hreward : slashReward .debug env D with
  | none => rfl
  | some r =>
      obtain ⟨k', a, t, hk', hformula, htreasury, -⟩ := slashReward_eq_some.1 hreward
      rw [hk] at hk'
      cases hk'
      have hproduct := inRange_of_slashFormula_debug hformula
      have hslash := isSlash_of_slashFormula (Or.inl rfl) hformula
      have hsum := Profile.inRange_of_fit_debug htreasury
      rw [hslash.treasuryPortion_eq] at hsum
      exact absurd ⟨hproduct, hsum⟩ hfits

/-- Where the arithmetic wraps around, the reward comes from the wrapped product. -/
theorem slashReward_release {D : Address} {k : Keeper Address}
    (hk : env.keepers.lookup D = some k) :
    slashReward .release env D = some (wrappedReward k.stakeAmount.val) := by
  obtain ⟨a, hformula⟩ := exists_slashFormula_release k.stakeAmount
  obtain ⟨product, hproduct, hslash, -, hhalf⟩ := steps_of_slashFormula hformula
  have hwrap : product = MachineInt.wrap .i128 (k.stakeAmount.val * (5 : I128).val) :=
    (Option.some.inj hproduct).symm
  have hfive : (5 : I128).val = 5 := by decide
  have hreward : a.secondaryReward.val = wrappedReward k.stakeAmount.val := by
    rw [hhalf, hslash, hwrap, hfive]
    rfl
  rw [← hreward]
  exact slashReward_eq_some.2 ⟨k, a, _, hk, hformula, rfl, rfl⟩

/-! ## Settlements and windows -/

/-- An admitted execution ends as the price decides exactly when its arithmetic does not keep the
balance from deciding. -/
theorem settlementOf_result_iff {task : ExecutionTask Address} {caller token : Address}
    {k kc : Keeper Address} (htoken : env.nativeToken = some token)
    (hk : env.keepers.lookup task.designatedKeeper = some k)
    (hsign : p = .debug → 0 ≤ k.stakeAmount.val) (hkc : env.keepers.lookup caller = some kc) :
    ((settlementOf host p env task caller).result =
        if priceOf env task k ≤ contractBalance host env token then .ok ()
        else .error (.error .insufficientRewardBalance)) ↔
      SettlesExactly p env task caller k (contractBalance host env token) := by
  cases p with
  | debug =>
      have hs := hsign rfl
      by_cases hgrace : InGrace env task
      · rw [settlementOf_of_inGrace hgrace htoken]
        by_cases hfits : SlashFits env k
        · have hreward := slashReward_of_fits .debug hk hs hfits
          rw [Settlement.result_eq_iff hreward]
          have hprice := priceOf_of_inGrace (k := k) hgrace
          have hmax : max (k.stakeAmount.val * 5 / 100 / 2) 0 = k.stakeAmount.val * 5 / 100 / 2 :=
            max_eq_left (by omega)
          simp only [SettlesExactly, hfits, implies_true, true_and, hprice, hmax,
            advances_debug_iff hkc, and_true]
        · -- the slash aborts before anything is paid
          have hreward := slashReward_debug_of_not_fits hk hfits
          constructor
          · intro hresult
            exact absurd hresult (Settlement.result_ne_of_none hreward)
          · intro hexact
            exact absurd (hexact.1 hgrace) hfits
      · rw [settlementOf_of_not_inGrace hgrace htoken, Settlement.result_eq_iff rfl]
        have hprice := priceOf_of_not_inGrace (k := k) hgrace
        simp only [SettlesExactly, hgrace, false_implies, true_and, hprice, max_self, add_zero,
          advances_debug_iff hkc, and_true]
  | release =>
      by_cases hgrace : InGrace env task
      · rw [settlementOf_of_inGrace hgrace htoken,
          Settlement.result_eq_iff (slashReward_release hk)]
        simp only [SettlesExactly, hgrace, true_implies, advances_release hkc, implies_true,
          true_and]
      · rw [settlementOf_of_not_inGrace hgrace htoken, Settlement.result_eq_iff rfl]
        have hprice := priceOf_of_not_inGrace (k := k) hgrace
        simp only [SettlesExactly, hgrace, false_implies, hprice, max_self, add_zero,
          advances_release hkc, implies_true, and_true]

omit [DecidableEq Address] in
theorem nativeBalance_of_some {token : Address} (htoken : env.nativeToken = some token) :
    nativeBalance host env = contractBalance host env token := by
  unfold nativeBalance
  rw [htoken]

theorem executionPrice_of_some {task : ExecutionTask Address} {k : Keeper Address}
    (hk : env.keepers.lookup task.designatedKeeper = some k) :
    executionPrice env task = priceOf env task k := by
  unfold executionPrice
  rw [hk]

/-- The window decides as the four regions do over the integers exactly when no admitted execution
is kept from it by its arithmetic. -/
theorem windowResult_eq_fourRegions_iff (h : WellFormed env)
    (hsign : p = .debug → ∀ D k, env.keepers.lookup D = some k → 0 ≤ k.stakeAmount.val)
    {taskId : TaskId} {caller : Address} :
    windowResult host p env taskId caller = fourRegions host env taskId caller ↔
      ∀ task k, env.tasks.lookup taskId = some task →
        env.keepers.lookup task.designatedKeeper = some k → PassesArbitration env task caller →
        SettlesExactly p env task caller k (nativeBalance host env) := by
  unfold windowResult fourRegions
  cases htask : env.tasks.lookup taskId with
  | none => simp only [reduceCtorEq, false_implies, implies_true]
  | some task =>
      obtain ⟨token, htoken⟩ := h.configured htask
      obtain ⟨k, hk⟩ := h.designated htask
      have hquantified : (∀ task' k', some task = some task' →
          env.keepers.lookup task'.designatedKeeper = some k' →
          PassesArbitration env task' caller →
          SettlesExactly p env task' caller k' (nativeBalance host env)) ↔
          (PassesArbitration env task caller →
            SettlesExactly p env task caller k (nativeBalance host env)) := by
        constructor
        · intro hall
          exact hall task k rfl hk
        · rintro hone task' k' ⟨⟩ hk'
          rw [hk] at hk'
          cases hk'
          exact hone
      rw [hquantified, nativeBalance_of_some htoken]
      simp only [executionPrice_of_some hk, Region.result, Region.verdict, PassesArbitration]
      cases hrefusal : (regionOf task.nextAllowedExecution.val env.ledgerSequence.val).refusal
          (decide (caller = task.designatedKeeper)) (isRegistered env caller) with
      | some e => simp only [reduceCtorEq, false_implies]
      | none =>
          obtain ⟨kc, hkc⟩ := registered_of_admitted hk hrefusal
          simp only [true_implies]
          exact settlementOf_result_iff htoken hk (fun hp => hsign hp _ k hk) hkc

omit [DecidableEq Address] in
/-- The value of a successful call does not tell two results apart. -/
theorem map_unit_inj {a b : Except Failure Unit} :
    (a.map fun _ => (Value.unit : Value Address)) = b.map (fun _ => .unit) ↔ a = b := by
  constructor
  · intro hmap
    cases a with
    | error e =>
        cases b with
        | error e' =>
            cases hmap
            rfl
        | ok => cases hmap
    | ok =>
        cases b with
        | error e => cases hmap
        | ok => rfl
  · rintro rfl
    rfl

/-! ## Calls -/

/-- In a contract with a positive minimum stake, an execution call returns what the four regions
decide over the integers exactly when its region refuses it or its arithmetic does not keep the
balance from deciding. -/
theorem window_arbitration_iff (host : Host Address TokenState) (p : Profile)
    (inv : Invocation Address TokenState) (env : Env Address TokenState) (taskId : TaskId)
    (caller : Address) (ledgerSequence : U32) (hreach : Reachable host p env)
    (hmin : PositiveMinimum env) (hauth : inv.authorized caller = true)
    (hcaller : caller ≠ host.currentContractAddress)
    (hdrip : ∀ task, env.tasks.lookup taskId = some task → DripReturns host inv env task) :
    let now := atLedger env ledgerSequence
    FollowsFourRegions host p inv now taskId caller ↔
      ∀ task k, now.tasks.lookup taskId = some task →
        now.keepers.lookup task.designatedKeeper = some k → PassesArbitration now task caller →
        SettlesExactly p now task caller k (nativeBalance host now) := by
  intro now
  have h : WellFormed now := hreach.wellFormed.congr rfl rfl rfl rfl rfl
  have hsign : p = .debug → ∀ D k, now.keepers.lookup D = some k → 0 ≤ k.stakeAmount.val := by
    rintro rfl D k hk
    have hpos : 1 ≤ k.stakeAmount.val := hreach.kept kept_pos hmin D k hk
    omega
  obtain ⟨hresult, -⟩ := window_arbitration host p inv env taskId caller ledgerSequence hreach hmin
    hauth hcaller hdrip
  unfold FollowsFourRegions
  rw [hresult, map_unit_inj]
  exact windowResult_eq_fourRegions_iff h hsign

/-- A stake of `2 ^ 127 - 1` makes the slash arithmetic overflow: a secondary execution that the
contract cannot pay for traps in the debug profile and succeeds in the release profile. -/
theorem window_arbitration_overflow :
    let id := sampleSha256 (taskSeed 0 0)
    let env (p : Profile) := run (step sampleHost p)
      (deployed (sampleTokens 1701411834604692317316873037158841057) 0)
      [.call sampleInvocation (.initializeContract 2 1 1),
        .call sampleInvocation
          (.registerKeeper 3 170141183460469231731687303715884105727),
        .call sampleInvocation (.registerKeeper 4 1),
        .call sampleInvocation (.provisionTask 5 10 30 3), .closeLedger 11]
    let result (p : Profile) :=
      (invoke sampleHost p sampleInvocation (.executeDripSplit id 4) (env p)).1
    (∀ task ∈ (env .debug).tasks.lookup id, task.nextAllowedExecution.val = 10 ∧
      task.designatedKeeper = 3 ∧ task.microRewardPerRun.val = 30) ∧
    (∀ p ∈ [Profile.debug, .release],
      fourRegions sampleHost (env p) id 4 = .error (.error .insufficientRewardBalance) ∧
        ¬ FollowsFourRegions sampleHost p sampleInvocation (env p) id 4) ∧
    result .debug = .error .trap ∧ result .release = .ok .unit := by
  decide +kernel

/-- A secondary execution one ledger after the window opened. -/
theorem window_arbitration_iff_sample :
    let env := run (step sampleHost .debug) (deployed (sampleTokens 1000) 0)
      [.call sampleInvocation (.initializeContract 2 1 1),
        .call sampleInvocation (.registerKeeper 3 400),
        .call sampleInvocation (.registerKeeper 4 1),
        .call sampleInvocation (.provisionTask 5 10 30 3)]
    FollowsFourRegions sampleHost .debug sampleInvocation (atLedger env 11)
      (sampleSha256 (taskSeed 0 0)) 4 := by
  intro env
  have hiff := window_arbitration_iff sampleHost .debug sampleInvocation env
    (sampleSha256 (taskSeed 0 0)) 4 11 ⟨_, _, _, rfl⟩ (by decide +kernel) rfl (by decide)
    (fun _ _ => ⟨_, rfl, fun _ => rfl⟩)
  have hexact : ∀ task ∈ (atLedger env 11).tasks.lookup (sampleSha256 (taskSeed 0 0)),
      ∀ k ∈ (atLedger env 11).keepers.lookup task.designatedKeeper,
        SettlesExactly .debug (atLedger env 11) task 4 k
          (nativeBalance sampleHost (atLedger env 11)) := by
    decide +kernel
  exact hiff.2 fun task k htask hk _ => hexact task htask k hk

end ChronosKeeper.Anchor
