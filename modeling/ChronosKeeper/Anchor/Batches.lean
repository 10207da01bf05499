import ChronosKeeper.Foundations.Commuting
import ChronosKeeper.Anchor.Commutation

/-!
# All executions of a ledger

The validators order the transactions of a ledger as they like. For executions of different tasks
the order does not matter (`executions_permute`): they succeed one after the other in every order
or in none, and every order leads to the same store and the same balances of the contract.

Two executions that stand next to each other can be exchanged (`exchange`). After the exchange the
token balances of the callers and the events may differ, and `SameContract` leaves these two out;
a call that succeeds in one of two such environments succeeds in the other (`Executable.congr`).
-/

set_option autoImplicit false

namespace ChronosKeeper.Anchor

open ChronosKeeper.Foundations

variable {Address TokenState : Type} [DecidableEq Address]

/-- A call that executes a task. -/
structure Execution (Address TokenState : Type) where
  inv : Invocation Address TokenState
  taskId : TaskId
  caller : Address

/-- The call succeeds. -/
def Execution.Works (host : Host Address TokenState) (env : Env Address TokenState)
    (e : Execution Address TokenState) : Prop :=
  Succeeds host .debug e.inv (.executeDripSplit e.taskId e.caller) env

/-- The environment after the call. -/
def Execution.perform (host : Host Address TokenState) (env : Env Address TokenState)
    (e : Execution Address TokenState) : Env Address TokenState :=
  step host .debug env (.call e.inv (.executeDripSplit e.taskId e.caller))

/-- The caller is not the contract, and the drip list of the task has no part in the token
balances. -/
structure Execution.Plain (host : Host Address TokenState) (env : Env Address TokenState)
    (e : Execution Address TokenState) : Prop where
  caller : e.caller ≠ host.currentContractAddress
  drip : ∀ t, env.tasks.lookup e.taskId = some t → InertDrip host e.inv t.targetDripList

/-- The ledger and the instance storage, which no execution changes. -/
def configuration (env : Env Address TokenState) :
    U32 × Option Address × Option Address × Option I128 × Option U32 :=
  (env.ledgerSequence, env.admin, env.nativeToken, env.minKeeperStake, env.taskCounter)

/-- The two environments differ at most in the events and in the balances of others. -/
structure SameContract (host : Host Address TokenState) (env env' : Env Address TokenState) :
    Prop where
  store : ∃ tokens events, env' = { env with tokens, events }
  balance : ∀ token, contractBalance host env' token = contractBalance host env token

variable {host : Host Address TokenState} {inv : Invocation Address TokenState}
  {env env' env₁ env₁' : Env Address TokenState} {taskId : TaskId} {task : ExecutionTask Address}
  {caller : Address}

namespace SameContract

omit [DecidableEq Address] in
theorem refl (env : Env Address TokenState) : SameContract host env env where
  store := ⟨env.tokens, env.events, rfl⟩
  balance _ := rfl

omit [DecidableEq Address] in
theorem trans {env'' : Env Address TokenState} (h : SameContract host env env')
    (h' : SameContract host env' env'') : SameContract host env env'' where
  store := by
    obtain ⟨tokens, events, rfl⟩ := h.store
    obtain ⟨tokens', events', rfl⟩ := h'.store
    exact ⟨tokens', events', rfl⟩
  balance token := (h'.balance token).trans (h.balance token)

omit [DecidableEq Address] in
theorem of_accounts (h : SameAccounts host env env')
    (hconfiguration : configuration env = configuration env') : SameContract host env env' where
  store := by
    obtain ⟨hledger, hadmin, hnative, hmin, hcounter⟩ : _ ∧ _ ∧ _ ∧ _ ∧ _ := by
      simpa only [configuration, Prod.mk.injEq] using hconfiguration
    refine ⟨env'.tokens, env'.events, ?_⟩
    rw [h.keepers, h.tasks, h.treasuryBalance, hledger, hadmin, hnative, hmin, hcounter]
  balance token := (h.balance token).symm

end SameContract

/-! ## Executions in environments that agree -/

theorem Executes.configuration_eq {p : Profile}
    (hexec : Executes host p inv env taskId task caller env') :
    configuration env' = configuration env := by
  obtain ⟨hledger, hadmin, hnative, hmin, hcounter⟩ := hexec.instance_eq
  unfold configuration
  rw [hledger, hadmin, hnative, hmin, hcounter]

/-- A call that can be made in one of two environments that agree can be made in the other. -/
theorem Executable.congr (h : Executable host inv env taskId task caller)
    (hsame : SameContract host env env') (hdrip : InertDrip host inv task.targetDripList) :
    Executable host inv env' taskId task caller := by
  obtain ⟨⟨tokens, events, rfl⟩, hbalance⟩ := hsame
  refine ⟨h.stored, h.authorized, ?_, h.passes, ⟨h.fits.schedule, h.fits.counter, h.fits.slash⟩, ?_⟩
  · rw [hdrip.returns tokens env.tokens]
    exact h.drip
  · intro token htoken
    rw [hbalance]
    exact h.covered token htoken

/-- An execution leads from environments that agree to environments that agree. -/
theorem Executes.congr (h : Staked env) (h' : Staked env') (hsame : SameContract host env env')
    (hcaller : caller ≠ host.currentContractAddress) (htask : env.tasks.lookup taskId = some task)
    (hdrip : InertDrip host inv task.targetDripList)
    (hexec : Executes host .debug inv env taskId task caller env₁)
    (hexec' : Executes host .debug inv env' taskId task caller env₁') :
    SameContract host env₁ env₁' := by
  obtain ⟨⟨tokens, events, rfl⟩, hbalance⟩ := hsame
  obtain ⟨next, hnext, hlookup⟩ := hexec.lookup_tasks h.wellFormed htask
  obtain ⟨next', hnext', hlookup'⟩ := hexec'.lookup_tasks h'.wellFormed htask
  obtain ⟨token, htoken⟩ := h.wellFormed.configured htask
  have hkeepers : env₁.keepers = env₁'.keepers := by
    apply Finmap.ext_lookup
    intro x
    rw [hexec.lookup_keepers h.wellFormed, hexec'.lookup_keepers h'.wellFormed]
    rfl
  have htasks : env₁.tasks = env₁'.tasks := by
    have hsame : next = next' := Option.some.inj (hnext.symm.trans hnext')
    apply Finmap.ext_lookup
    intro id
    rw [hlookup, hlookup', hsame]
  have htreasury : env₁.treasuryBalance = env₁'.treasuryBalance := by
    rw [hexec.treasury_eq.2, hexec'.treasury_eq.2]
    rfl
  -- The same cost is paid out of the same balance.
  have hpaid := hexec.paid h hcaller htask hdrip htoken
  have hpaid' := hexec'.paid h' hcaller htask hdrip htoken
  have hcost : costOf { env with tokens, events } task = costOf env task := rfl
  have hbalance₁ : ∀ t, contractBalance host env₁ t = contractBalance host env₁' t := by
    intro t
    have hbefore := hbalance t
    unfold contractBalance at hbefore ⊢
    rw [hpaid.balance_eq hcaller, hpaid'.balance_eq hcaller, hcost, hbefore]
  exact .of_accounts ⟨hkeepers, htasks, htreasury, hbalance₁⟩
    (hexec.configuration_eq.trans hexec'.configuration_eq.symm)

/-! ## Executions as guarded actions -/

/-- A plain call that succeeds. -/
structure Execution.Ready (host : Host Address TokenState) (env : Env Address TokenState)
    (e : Execution Address TokenState) : Prop where
  works : e.Works host env
  plain : e.Plain host env

/-- What a plain call that succeeds does. -/
theorem Execution.Ready.executes {e : Execution Address TokenState} (hready : e.Ready host env) :
    ∃ task, env.tasks.lookup e.taskId = some task ∧ e.inv.authorized e.caller = true ∧
      InertDrip host e.inv task.targetDripList ∧
      Executes host .debug e.inv env e.taskId task e.caller (e.perform host env) := by
  obtain ⟨task, htask, hauth, hexec⟩ := executes_of_succeeds hready.works
  exact ⟨task, htask, hauth, hready.plain.drip task htask, hexec⟩

/-- A call stays plain when another task is executed. -/
theorem Execution.Plain.perform_iff {e f : Execution Address TokenState} (h : Staked env)
    (hready : e.Ready host env) (hne : f.taskId ≠ e.taskId) :
    f.Plain host (e.perform host env) ↔ f.Plain host env := by
  obtain ⟨task, htask, -, -, hexec⟩ := hready.executes
  have hlookup : (e.perform host env).tasks.lookup f.taskId = env.tasks.lookup f.taskId :=
    lookup_tasks_after h hexec htask hne
  constructor
  · intro hplain
    exact ⟨hplain.caller, fun t ht => hplain.drip t (hlookup.trans ht)⟩
  · intro hplain
    exact ⟨hplain.caller, fun t ht => hplain.drip t (hlookup.symm.trans ht)⟩

theorem Execution.Ready.staked {e : Execution Address TokenState} (h : Staked env)
    (hready : e.Ready host env) : Staked (e.perform host env) := by
  obtain ⟨task, htask, -, -, hexec⟩ := hready.executes
  exact hexec.staked h htask

/-- In environments that agree the same calls succeed, with results that agree. -/
theorem Execution.Ready.congr {e : Execution Address TokenState} (h : Staked env)
    (h' : Staked env') (hsame : SameContract host env env') (hready : e.Ready host env) :
    e.Ready host env' ∧ SameContract host (e.perform host env) (e.perform host env') := by
  obtain ⟨task, htask, hauth, hdrip, hexec⟩ := hready.executes
  have hcaller := hready.plain.caller
  have hexecutable := (executable_of_executes h hcaller hauth htask hdrip hexec).congr hsame hdrip
  have hworks : e.Works host env' := succeeds_of_executable h' hcaller hdrip hexecutable
  have hlookup : env'.tasks.lookup e.taskId = env.tasks.lookup e.taskId :=
    hexecutable.stored.trans htask.symm
  have hready' : e.Ready host env' :=
    ⟨hworks, hcaller, fun t ht => hready.plain.drip t (hlookup.symm.trans ht)⟩
  obtain ⟨task', htask', -, -, hexec'⟩ := hready'.executes
  rw [hexecutable.stored] at htask'
  cases htask'
  exact ⟨hready', hexec.congr h h' hsame hcaller htask hdrip hexec'⟩

/-- Two executions of different tasks that stand next to each other can be exchanged. -/
theorem Execution.Ready.exchange {e f : Execution Address TokenState} (h : Staked env)
    (hne : e.taskId ≠ f.taskId) (he : e.Ready host env) (hf : f.Ready host (e.perform host env)) :
    f.Ready host env ∧ e.Ready host (f.perform host env) ∧
      SameContract host (f.perform host (e.perform host env))
        (e.perform host (f.perform host env)) := by
  have hplainF : f.Plain host env := (Execution.Plain.perform_iff h he hne.symm).1 hf.plain
  obtain ⟨⟨hworksF, hworksE⟩, a, b, env₁, env₂, ha, hb, rfl, rfl, hA, hB, hAB, hBA⟩ :=
    Anchor.exchange h hne he.plain.caller hplainF.caller he.plain.drip hplainF.drip he.works
      hf.works
  have hreadyF : f.Ready host env := ⟨hworksF, hplainF⟩
  have hreadyE : e.Ready host (f.perform host env) :=
    ⟨hworksE, (Execution.Plain.perform_iff h hreadyF hne).2 he.plain⟩
  refine ⟨hreadyF, hreadyE, .of_accounts ⟨keepers_comm h ha hb hA hB hAB hBA,
    tasks_comm h hne ha hb hA hB hAB hBA, treasuryBalance_comm h ha hb hA hB hAB hBA, ?_⟩ ?_⟩
  · intro token
    have hcontract := balances_comm h hne he.plain.caller hplainF.caller ha hb (he.plain.drip a ha)
      (hplainF.drip b hb) hA hB hAB hBA token host.currentContractAddress
      (Or.inl ⟨he.plain.caller.symm, hplainF.caller.symm⟩)
    exact congrArg MachineInt.val hcontract
  · calc configuration (f.perform host (e.perform host env))
        = configuration (e.perform host env) := hAB.configuration_eq
      _ = configuration env := hA.configuration_eq
      _ = configuration (f.perform host env) := hB.configuration_eq.symm
      _ = configuration (e.perform host (f.perform host env)) := hBA.configuration_eq.symm

/-- Executions of different tasks can be exchanged wherever every stake is positive. -/
theorem executions_exchangeable (host : Host Address TokenState) :
    Exchangeable (Execution.perform host) (fun env e => e.Ready host env) (SameContract host)
      Staked fun e f => e.taskId ≠ f.taskId where
  refl := SameContract.refl
  trans := SameContract.trans
  invariant h hready := hready.staked h
  congr h h' hsame hready := hready.congr h h' hsame
  symm := Ne.symm
  exchange h hne he hf := he.exchange h hne hf

/-! ## Batches -/

/-- Every call of the batch succeeds when its turn comes. -/
def AllWork (host : Host Address TokenState) (env : Env Address TokenState)
    (batch : List (Execution Address TokenState)) : Prop :=
  AllOk (Execution.perform host) (Execution.Works host) env batch

/-- In a batch of different tasks, calls that are plain at the start are plain at their turn. -/
theorem allReady_of_allWork (batch : List (Execution Address TokenState)) :
    ∀ {env : Env Address TokenState}, Staked env → (batch.map Execution.taskId).Nodup →
      (∀ e ∈ batch, e.Plain host env) → AllWork host env batch →
      AllOk (Execution.perform host) (fun env e => e.Ready host env) env batch := by
  induction batch with
  | nil => exact fun _ _ _ _ => trivial
  | cons e batch ih =>
      intro env h hdistinct hplain hall
      obtain ⟨hworks, hrest⟩ := hall
      rw [List.map_cons, List.nodup_cons] at hdistinct
      have hready : e.Ready host env := ⟨hworks, hplain e List.mem_cons_self⟩
      refine ⟨hready, ih (hready.staked h) hdistinct.2 ?_ hrest⟩
      intro f hf
      have hne : f.taskId ≠ e.taskId := by
        intro heq
        apply hdistinct.1
        rw [← heq]
        exact List.mem_map_of_mem hf
      exact (Execution.Plain.perform_iff h hready hne).2 (hplain f (List.mem_cons_of_mem e hf))

/-- In one order, and so in every order. -/
theorem allWork_of_perm {batch batch' : List (Execution Address TokenState)} (h : Staked env)
    (hperm : batch.Perm batch') (hdistinct : (batch.map Execution.taskId).Nodup)
    (hplain : ∀ e ∈ batch, e.Plain host env) (hall : AllWork host env batch) :
    AllWork host env batch' ∧
      SameContract host (run (Execution.perform host) env batch)
        (run (Execution.perform host) env batch') := by
  have hpairs : batch.Pairwise fun e f => e.taskId ≠ f.taskId := List.pairwise_map.1 hdistinct
  obtain ⟨hall', hsame⟩ := (executions_exchangeable host).perm hperm h hpairs
    (allReady_of_allWork batch h hdistinct hplain hall)
  exact ⟨hall'.imp (fun _ _ hready => hready.works) batch', hsame⟩

/-- Executions of different tasks in one ledger succeed in every order or in none. All orders lead
to the same keepers, tasks and treasury, and to the same balance of the contract in every token. -/
theorem executions_permute (host : Host Address TokenState) (env : Env Address TokenState)
    (batch batch' : List (Execution Address TokenState)) (hreach : Reachable host .debug env)
    (hmin : PositiveMinimum env) (hperm : batch.Perm batch')
    (hdistinct : (batch.map Execution.taskId).Nodup)
    (hplain : ∀ e ∈ batch, e.Plain host env) :
    (AllWork host env batch ↔ AllWork host env batch') ∧
      (AllWork host env batch →
        SameContract host (run (Execution.perform host) env batch)
          (run (Execution.perform host) env batch')) := by
  have h : Staked env := ⟨hreach.wellFormed, hreach.kept kept_pos hmin⟩
  have hdistinct' : (batch'.map Execution.taskId).Nodup :=
    (hperm.map Execution.taskId).nodup_iff.1 hdistinct
  refine ⟨⟨fun hall => (allWork_of_perm h hperm hdistinct hplain hall).1, ?_⟩,
    fun hall => (allWork_of_perm h hperm hdistinct hplain hall).2⟩
  intro hall
  exact (allWork_of_perm h hperm.symm hdistinct'
    (fun e he => hplain e (hperm.mem_iff.2 he)) hall).1

/-- Three tasks, two of which share a slash, in two orders. -/
theorem executions_permute_sample :
    let env := run (step sampleHost .debug) (deployed (sampleTokens 1000) 0)
      [.call sampleInvocation (.initializeContract 2 1 1),
        .call sampleInvocation (.registerKeeper 3 4000),
        .call sampleInvocation (.registerKeeper 4 500),
        .call sampleInvocation (.registerKeeper 5 500),
        .call sampleInvocation (.provisionTask 6 10 30 3),
        .call sampleInvocation (.provisionTask 7 10 30 3),
        .call sampleInvocation (.provisionTask 8 11 30 4), .closeLedger 11]
    let execution := fun counter caller =>
      (⟨sampleInvocation, sampleSha256 (taskSeed counter 0), caller⟩ :
        Execution Nat (TokenLedger Nat))
    SameContract sampleHost
      (run (Execution.perform sampleHost) env [execution 0 4, execution 1 5, execution 2 4])
      (run (Execution.perform sampleHost) env [execution 2 4, execution 0 4, execution 1 5]) := by
  intro env execution
  have hinert : ∀ target, InertDrip sampleHost sampleInvocation target := by
    intro target
    refine ⟨fun _ _ => rfl, ?_⟩
    intro st st' hst token holder
    cases hst
    rfl
  have hplain : ∀ e ∈ [execution 0 4, execution 1 5, execution 2 4], e.Plain sampleHost env := by
    intro e he
    simp only [List.mem_cons, List.not_mem_nil, or_false] at he
    rcases he with rfl | rfl | rfl <;> exact ⟨by decide, fun t _ => hinert t.targetDripList⟩
  have hall : AllWork sampleHost env [execution 0 4, execution 1 5, execution 2 4] := by
    refine ⟨?_, ?_, ?_, trivial⟩ <;> unfold Execution.Works <;> decide +kernel
  have hperm : ∀ a b c : Execution Nat (TokenLedger Nat), [a, b, c].Perm [c, a, b] :=
    fun a b c => (List.perm_append_comm : ([a, b] ++ [c]).Perm ([c] ++ [a, b]))
  have hdistinct : ([execution 0 4, execution 1 5, execution 2 4].map Execution.taskId).Nodup := by
    decide +kernel
  have hmin : PositiveMinimum env := by decide +kernel
  exact (executions_permute sampleHost env _ _ ⟨_, _, _, rfl⟩ hmin (hperm _ _ _) hdistinct
    hplain).2 hall

end ChronosKeeper.Anchor
