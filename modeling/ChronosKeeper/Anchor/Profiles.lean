import ChronosKeeper.Anchor.Contract
import ChronosKeeper.Foundations.TrapAgreement

/-!
# The contract in the two build profiles

The contract computes with the operators of the language, which trap on overflow in a debug build
and wrap in a release build. Nothing else depends on the profile: every entry point ends in the
same result and state in any profile, unless it traps in a debug build (`agrees_code`). So the runs
of the two builds are the same as long as no call traps in the debug build alone
(`profiles_run_alike`).
-/

set_option autoImplicit false

namespace ChronosKeeper.Anchor

open ChronosKeeper.Foundations

variable {Address TokenState : Type} {host : Host Address TokenState} (p : Profile)
  {inv : Invocation Address TokenState}

/-! ## The parts of the contract -/

theorem agrees_arith {α : Type} {o o' : Option α} (h : AgreesUnlessNone o o') :
    Tx.AgreesUnless .trap (arith o : AnchorM Address TokenState α) (arith o') :=
  Tx.agreesUnless_require h

theorem slashFormula_agrees (stakeAmount : I128) :
    AgreesUnlessNone (slashFormula .debug stakeAmount) (slashFormula p stakeAmount) := by
  unfold slashFormula
  apply (p.mul_agrees _ _).bind
  intro product
  apply (AgreesUnlessNone.refl _).bind
  intro slashAmount
  apply (p.sub_agrees _ _).bind
  intro newStake
  apply (AgreesUnlessNone.refl _).bind
  intro secondaryReward
  exact (p.sub_agrees _ _).bind fun treasuryPortion => .refl _

variable [DecidableEq Address]

theorem agrees_applySlash (designatedKeeper : Address) :
    Tx.AgreesUnless .trap
      (applySlash .debug designatedKeeper : AnchorM Address TokenState (I128 × I128))
      (applySlash p designatedKeeper) := by
  unfold applySlash
  apply Tx.AgreesUnless.after
  intro keeper
  apply Tx.AgreesUnless.ite (.refl _ _)
  apply (agrees_arith (slashFormula_agrees p keeper.stakeAmount)).bind
  intro amounts
  apply Tx.AgreesUnless.after
  intro env
  exact (agrees_arith (p.add_agrees _ _)).bind fun treasury => .refl _ _

theorem agrees_executeDistribution (task : ExecutionTask Address) (caller : Address)
    (isSecondary : Bool) :
    Tx.AgreesUnless .trap (executeDistribution host .debug inv task caller isSecondary)
      (executeDistribution host p inv task caller isSecondary) := by
  unfold executeDistribution
  apply Tx.AgreesUnless.after
  intro env
  apply Tx.AgreesUnless.after
  intro _
  apply Tx.AgreesUnless.after
  intro _
  apply (agrees_arith (p.add_agrees _ _)).bind
  intro nextAllowedExecution
  apply Tx.AgreesUnless.after
  intro _
  apply Tx.AgreesUnless.after
  intro keeper
  exact (agrees_arith (p.add_agrees _ _)).bind fun totalExecutions => .refl _ _

theorem agrees_executeInGrace (taskId : TaskId) (task : ExecutionTask Address)
    (caller : Address) :
    Tx.AgreesUnless .trap (executeInGrace host .debug inv taskId task caller)
      (executeInGrace host p inv taskId task caller) := by
  unfold executeInGrace
  apply Tx.AgreesUnless.after
  intro _
  apply Tx.AgreesUnless.after
  intro env
  apply Tx.AgreesUnless.after
  intro _
  apply (agrees_applySlash p task.designatedKeeper).bind
  intro amounts
  exact (agrees_executeDistribution p task caller true).bind fun _ => .refl _ _

theorem agrees_executeDripSplit (taskId : TaskId) (caller : Address) :
    Tx.AgreesUnless .trap (executeDripSplit host .debug inv taskId caller)
      (executeDripSplit host p inv taskId caller) := by
  unfold executeDripSplit
  apply Tx.AgreesUnless.after
  intro task
  apply Tx.AgreesUnless.after
  intro _
  apply Tx.AgreesUnless.after
  intro env
  apply Tx.AgreesUnless.after
  intro _
  apply (agrees_arith (p.sub_agrees _ _)).bind
  intro ledgersElapsed
  -- the three regions in which an execution can succeed
  apply Tx.AgreesUnless.ite
  · exact .after fun _ => agrees_executeDistribution p task caller false
  apply Tx.AgreesUnless.ite
  · exact agrees_executeInGrace p taskId task caller
  · unfold executePostGrace
    apply Tx.AgreesUnless.after
    intro env
    apply Tx.AgreesUnless.after
    intro _
    exact .after fun _ => agrees_executeDistribution p task caller false

theorem agrees_provisionTask (targetDripList : Address) (executionIntervalLedgers : U32)
    (microRewardPerRun : I128) (designatedKeeper : Address) :
    Tx.AgreesUnless .trap
      (provisionTask host .debug inv targetDripList executionIntervalLedgers microRewardPerRun
        designatedKeeper)
      (provisionTask host p inv targetDripList executionIntervalLedgers microRewardPerRun
        designatedKeeper) := by
  unfold provisionTask
  apply Tx.AgreesUnless.after
  intro env
  apply Tx.AgreesUnless.after
  intro admin
  apply Tx.AgreesUnless.after
  intro _
  apply Tx.AgreesUnless.after
  intro _
  apply Tx.AgreesUnless.after
  intro _
  apply Tx.AgreesUnless.after
  intro _
  apply Tx.AgreesUnless.after
  intro _
  apply (agrees_arith (p.add_agrees _ _)).bind
  intro nextCounter
  apply Tx.AgreesUnless.after
  intro _
  exact (agrees_arith (p.add_agrees _ _)).bind fun nextAllowedExecution => .refl _ _

/-! ## Calls and runs -/

/-- Only the calls that compute depend on the profile. -/
theorem agrees_code (c : Call Address) :
    Tx.AgreesUnless .trap (c.code host .debug inv) (c.code host p inv) := by
  cases c with
  | provisionTask targetDripList interval reward designatedKeeper =>
      exact (agrees_provisionTask p targetDripList interval reward designatedKeeper).map _
  | executeDripSplit taskId caller => exact (agrees_executeDripSplit p taskId caller).map _
  | initializeContract => exact .refl _ _
  | registerKeeper => exact .refl _ _
  | getKeeper => exact .refl _ _
  | getTask => exact .refl _ _

/-- A call gives the same result in both builds, and leaves the same state, unless the debug build
alone traps. -/
theorem invoke_eq_debug {c : Call Address} {env : Env Address TokenState}
    (htrap : (invoke host .debug inv c env).1 = .error .trap →
      (invoke host p inv c env).1 = .error .trap) :
    invoke host p inv c env = invoke host .debug inv c env :=
  (agrees_code p c).commit_eq htrap

/-- As long as no call of the run traps in a debug build alone, a build in any profile passes
through the same states and gives every call the same result. -/
theorem profiles_run_alike (host : Host Address TokenState) (env₀ : Env Address TokenState)
    (actions : List (Action Address TokenState))
    (htrap : ∀ env inv c, (env, .call inv c) ∈ trace (step host .debug) env₀ actions →
      (invoke host .debug inv c env).1 = .error .trap →
        (invoke host p inv c env).1 = .error .trap) :
    trace (step host p) env₀ actions = trace (step host .debug) env₀ actions ∧
      run (step host p) env₀ actions = run (step host .debug) env₀ actions ∧
      ∀ env inv c, (env, .call inv c) ∈ trace (step host p) env₀ actions →
        (invoke host p inv c env).1 = (invoke host .debug inv c env).1 := by
  have hsteps : ∀ env action, (env, action) ∈ trace (step host .debug) env₀ actions →
      step host p env action = step host .debug env action := by
    intro env action hmem
    cases action with
    | call inv c => exact congrArg Prod.snd (invoke_eq_debug p (htrap env inv c hmem))
    | closeLedger sequence => rfl
    | transfer token src dst amount => rfl
  obtain ⟨htrace, hrun⟩ := trace_eq_of_agree hsteps
  refine ⟨htrace, hrun, fun env inv c hmem => ?_⟩
  rw [htrace] at hmem
  exact congrArg Prod.fst (invoke_eq_debug p (htrap env inv c hmem))

/-- In this run no call traps: two keepers register, a task is provisioned, and it is executed within
the grace period. -/
theorem profiles_run_alike_sample :
    let id := sampleSha256 (taskSeed 0 0)
    let actions : List (Action Nat (TokenLedger Nat)) :=
      [.call sampleInvocation (.initializeContract 2 1 1),
        .call sampleInvocation (.registerKeeper 3 400),
        .call sampleInvocation (.registerKeeper 4 500),
        .call sampleInvocation (.provisionTask 5 10 30 3), .closeLedger 11,
        .call sampleInvocation (.executeDripSplit id 4)]
    let env := run (step sampleHost .release) (deployed (sampleTokens 1000) 0) actions
    env = run (step sampleHost .debug) (deployed (sampleTokens 1000) 0) actions ∧
      env.events.length = 5 := by
  intro id actions env
  have hsuccess : ∀ r ∈ trace (step sampleHost .debug) (deployed (sampleTokens 1000) 0) actions,
      ∀ inv c, r.2 = .call inv c → Succeeds sampleHost .debug inv c r.1 := by
    intro r hr inv c hrc
    simp only [actions, trace, List.mem_cons, List.not_mem_nil, or_false] at hr
    rcases hr with rfl | rfl | rfl | rfl | rfl | rfl <;> cases hrc <;> decide +kernel
  have halike := profiles_run_alike .release sampleHost (deployed (sampleTokens 1000) 0) actions
    (by
      intro env' inv c hmem htrap
      obtain ⟨v, hv⟩ := hsuccess _ hmem inv c rfl
      rw [hv] at htrap
      cases htrap)
  refine ⟨halike.2.1, ?_⟩
  decide +kernel

end ChronosKeeper.Anchor
