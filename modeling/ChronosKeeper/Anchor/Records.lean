import ChronosKeeper.Anchor.Invariants
import ChronosKeeper.Anchor.Regions

/-!
# Records across a step

What the stores hold after a slash, a distribution and a whole execution, in terms of what they
held before. A slash touches the record of the designated keeper, a distribution that of the
caller and the task; nothing else changes (`lookup_keepers_slashed`,
`lookup_keepers_distributed`, `lookup_tasks_distributed`). From these lookups follow the totals
of the stakes (`totalStake_slashed`, `totalStake_distributed`) and the permanence of records and
of the configuration over runs.
-/

set_option autoImplicit false

namespace ChronosKeeper.Anchor

open ChronosKeeper.Foundations

variable {Address TokenState : Type}

/-- The sum of the stakes of all keepers. -/
def totalStake (env : Env Address TokenState) : Int :=
  FiniteMap.total (fun k => k.stakeAmount.val) env.keepers

/-- `TreasuryBalance`, zero if unset. -/
def treasury (env : Env Address TokenState) : Int := (env.treasuryBalance.getD 0).val

variable [DecidableEq Address] {host : Host Address TokenState} {p : Profile}
  {inv : Invocation Address TokenState} {env env' : Env Address TokenState}

/-! ## Lookups -/

theorem lookup_keepers_registered (keeper : Address) (stakeAmount : I128) (x : Address) :
    (registered env keeper stakeAmount).keepers.lookup x =
      if x = keeper then some (newKeeper keeper stakeAmount) else env.keepers.lookup x :=
  FiniteMap.lookup_insert_eq _ _ _ _

omit [DecidableEq Address] in
theorem lookup_tasks_provisioned (nextCounter : U32) (task : ExecutionTask Address)
    (id : TaskId) : (provisioned env nextCounter task).tasks.lookup id =
      if id = task.taskId then some task else env.tasks.lookup id :=
  FiniteMap.lookup_insert_eq _ _ _ _

theorem lookup_keepers_slashed (h : WellFormed env) {D : Address} {k : Keeper Address}
    (hk : env.keepers.lookup D = some k) (a : SlashAmounts) (treasury : I128) (x : Address) :
    (slashed env D k a treasury).keepers.lookup x =
      if x = D then some (slashedKeeper k a.newStake) else env.keepers.lookup x := by
  have hkey := FiniteMap.lookup_insert_eq env.keepers k.address x (slashedKeeper k a.newStake)
  rw [h.keeperAddress hk] at hkey
  exact (h.keeperAddress hk) ▸ hkey

theorem lookup_keepers_distributed (task : ExecutionTask Address) (h : WellFormed env)
    {caller : Address} {d : Distribution Address TokenState}
    (hk : env.keepers.lookup caller = some d.keeper) (isSecondary : Bool) (x : Address) :
    (distributed env task caller isSecondary d).keepers.lookup x =
      if x = caller then some (executedKeeper d.keeper d.totalExecutions env.ledgerSequence)
      else env.keepers.lookup x := by
  unfold distributed
  rw [FiniteMap.lookup_insert_eq, h.keeperAddress hk]

theorem lookup_tasks_distributed (h : WellFormed env) {taskId : TaskId}
    {task : ExecutionTask Address} (htask : env.tasks.lookup taskId = some task)
    (caller : Address) (isSecondary : Bool) (d : Distribution Address TokenState) (id : TaskId) :
    (distributed env task caller isSecondary d).tasks.lookup id =
      if id = taskId then some { task with nextAllowedExecution := d.nextAllowedExecution }
      else env.tasks.lookup id := by
  unfold distributed
  rw [FiniteMap.lookup_insert_eq, h.taskId htask]

/-! ## Executions -/

namespace Executes

variable {taskId : TaskId} {task : ExecutionTask Address} {caller : Address}

/-- Every region advances the schedule of the task from the current ledger, and no other task. -/
theorem lookup_tasks (hexec : Executes host p inv env taskId task caller env')
    (h : WellFormed env) (htask : env.tasks.lookup taskId = some task) :
    ∃ next, p.add env.ledgerSequence task.executionIntervalLedgers = some next ∧
      ∀ id, env'.tasks.lookup id =
        if id = taskId then some { task with nextAllowedExecution := next }
        else env.tasks.lookup id := by
  cases hexec with
  | designated d _ _ hd =>
      exact ⟨d.nextAllowedExecution, hd.nextAllowedExecution,
        lookup_tasks_distributed h htask caller false d⟩
  | grace k a treasury d st _ _ _ _ _ _ _ _ hd =>
      have hslash := h.slashed task.designatedKeeper k a treasury
      exact ⟨d.nextAllowedExecution, hd.nextAllowedExecution,
        lookup_tasks_distributed hslash htask caller true d⟩
  | postGrace elapsed d _ _ _ hd =>
      exact ⟨d.nextAllowedExecution, hd.nextAllowedExecution,
        lookup_tasks_distributed (h.missed taskId elapsed) htask caller false d⟩

/-- An execution happens at or after the scheduled ledger. -/
theorem next_le_ledger (hexec : Executes host p inv env taskId task caller env') :
    task.nextAllowedExecution.val ≤ env.ledgerSequence.val := by
  cases hexec with
  | designated => omega
  | grace => omega
  | postGrace => omega

/-- The caller of an execution is registered. -/
theorem caller_registered (hexec : Executes host p inv env taskId task caller env') :
    ∃ k, env.keepers.lookup caller = some k := by
  cases hexec with
  | designated d _ _ hd => exact ⟨d.keeper, hd.keeper⟩
  | grace k a treasury d st _ _ _ hregistered => exact isRegistered_iff.1 hregistered
  | postGrace elapsed d _ hregistered => exact isRegistered_iff.1 hregistered

/-- The instance storage apart from the stores is left alone. -/
theorem instance_eq (hexec : Executes host p inv env taskId task caller env') :
    env'.ledgerSequence = env.ledgerSequence ∧ env'.admin = env.admin ∧
      env'.nativeToken = env.nativeToken ∧ env'.minKeeperStake = env.minKeeperStake ∧
      env'.taskCounter = env.taskCounter := by
  cases hexec with
  | designated => exact ⟨rfl, rfl, rfl, rfl, rfl⟩
  | grace => exact ⟨rfl, rfl, rfl, rfl, rfl⟩
  | postGrace => exact ⟨rfl, rfl, rfl, rfl, rfl⟩

/-- A property of keeper records that survives the bookkeeping of an execution and the slash of
this one holds of all keepers after the execution if it did before. -/
theorem all_keepers {P : Keeper Address → Prop}
    (hexec : Executes host p inv env taskId task caller env') (h : FiniteMap.All P env.keepers)
    (hexecuted : ∀ k totalExecutions currentLedger, P k →
      P (executedKeeper k totalExecutions currentLedger))
    (hslashed : InGrace env task → ∀ k a, env.keepers.lookup task.designatedKeeper = some k →
      slashFormula p k.stakeAmount = some a → P k → P (slashedKeeper k a.newStake)) :
    FiniteMap.All P env'.keepers := by
  cases hexec with
  | designated d _ _ hd => exact h.insert (hexecuted _ _ _ (h _ _ hd.keeper)) _
  | grace k a t d st hopen hgrace _ _ hk _ hformula _ hd =>
      -- First the slashed record is written, then that of the caller.
      have hnew := hslashed ⟨hopen, hgrace⟩ k a hk hformula (h _ k hk)
      have hall : FiniteMap.All P (slashed env task.designatedKeeper k a t).keepers :=
        h.insert hnew _
      exact hall.insert (hexecuted _ _ _ (hall _ _ hd.keeper)) _
  | postGrace elapsed d _ _ _ hd => exact h.insert (hexecuted _ _ _ (h _ _ hd.keeper)) _

end Executes

/-- The record of the caller found after a slash of another keeper is the one from before. -/
theorem lookup_caller_of_slashed (h : WellFormed env) {D caller : Address} {k : Keeper Address}
    (hk : env.keepers.lookup D = some k) {a : SlashAmounts} {treasury : I128}
    (hne : caller ≠ D) : (slashed env D k a treasury).keepers.lookup caller =
      env.keepers.lookup caller := by
  rw [lookup_keepers_slashed h hk, if_neg hne]

/-- The keepers after a grace execution: the caller is credited, the designated keeper slashed. -/
theorem lookup_keepers_grace (h : WellFormed env) {taskId : TaskId} {task : ExecutionTask Address}
    {caller : Address} {k : Keeper Address} (hk : env.keepers.lookup task.designatedKeeper = some k)
    (a : SlashAmounts) (treasury : I128) {d : Distribution Address TokenState} (st : TokenState)
    (hd : (slashed env task.designatedKeeper k a treasury).keepers.lookup caller = some d.keeper)
    (x : Address) :
    (secondaryPaid (distributed (slashed env task.designatedKeeper k a treasury) task caller true d)
        taskId task caller a st).keepers.lookup x =
      if x = caller then some (executedKeeper d.keeper d.totalExecutions env.ledgerSequence)
      else if x = task.designatedKeeper then some (slashedKeeper k a.newStake)
      else env.keepers.lookup x := by
  -- The distribution acts on the records that the slash has left.
  have hslash := h.slashed task.designatedKeeper k a treasury
  have hdist := lookup_keepers_distributed task hslash hd true x
  rw [lookup_keepers_slashed h hk] at hdist
  exact hdist

/-! ## Totals -/

/-- A slash exchanges the old stake of the keeper for the new one. -/
theorem totalStake_slashed (h : WellFormed env) {D : Address} {k : Keeper Address}
    (hk : env.keepers.lookup D = some k) (a : SlashAmounts) (treasury : I128) :
    totalStake (slashed env D k a treasury) =
      totalStake env - k.stakeAmount.val + a.newStake.val := by
  have hk' : env.keepers.lookup k.address = some k := (h.keeperAddress hk).symm ▸ hk
  exact FiniteMap.total_insert_of_some (fun k => k.stakeAmount.val) _ hk'

/-- A distribution moves no stake. -/
theorem totalStake_distributed (task : ExecutionTask Address) (h : WellFormed env)
    {caller : Address} {d : Distribution Address TokenState}
    (hk : env.keepers.lookup caller = some d.keeper) (isSecondary : Bool) :
    totalStake (distributed env task caller isSecondary d) = totalStake env := by
  have hk' : env.keepers.lookup d.keeper.address = some d.keeper :=
    (h.keeperAddress hk).symm ▸ hk
  exact FiniteMap.total_insert_of_eq (fun k => k.stakeAmount.val) hk'
    (v := executedKeeper d.keeper d.totalExecutions env.ledgerSequence) rfl

theorem totalStake_registered {keeper : Address} (stakeAmount : I128)
    (hnew : env.keepers.lookup keeper = none) :
    totalStake (registered env keeper stakeAmount) = totalStake env + stakeAmount.val :=
  FiniteMap.total_insert_of_none (fun k : Keeper Address => k.stakeAmount.val)
    (newKeeper keeper stakeAmount) hnew

/-! ## Permanence -/

theorem Executes.keepers_persist {taskId : TaskId} {task : ExecutionTask Address}
    {caller : Address} (hexec : Executes host p inv env taskId task caller env') {a : Address}
    {k : Keeper Address} (hk : env.keepers.lookup a = some k) :
    ∃ k', env'.keepers.lookup a = some k' := by
  cases hexec with
  | designated d => exact FiniteMap.exists_lookup_insert hk _ _
  | grace kd amounts treasury d st =>
      obtain ⟨k', hk'⟩ := FiniteMap.exists_lookup_insert hk kd.address
        (slashedKeeper kd amounts.newStake)
      exact FiniteMap.exists_lookup_insert hk' _ _
  | postGrace elapsed d => exact FiniteMap.exists_lookup_insert hk _ _

/-- A registered keeper stays registered. -/
theorem keepers_persist {a : Address} {k : Keeper Address} (hk : env.keepers.lookup a = some k)
    (action : Action Address TokenState) :
    ∃ k', (step host p env action).keepers.lookup a = some k' := by
  have heffect := step_effect host p env action
  generalize step host p env action = env' at heffect
  cases heffect with
  | registered inv keeper stakeAmount => exact FiniteMap.exists_lookup_insert hk _ _
  | executed inv taskId caller task env' _ _ _ hexec => exact hexec.keepers_persist hk
  | idle => exact ⟨k, hk⟩
  | initialized => exact ⟨k, hk⟩
  | provisioned => exact ⟨k, hk⟩
  | closed => exact ⟨k, hk⟩
  | transferred => exact ⟨k, hk⟩

/-- The ledger sequence never decreases. -/
theorem ledger_le_step (action : Action Address TokenState) :
    env.ledgerSequence.val ≤ (step host p env action).ledgerSequence.val := by
  have heffect := step_effect host p env action
  generalize step host p env action = env' at heffect
  cases heffect with
  | executed inv taskId caller task env' _ _ _ hexec => exact le_of_eq (by rw [hexec.instance_eq.1])
  | closed sequence hle => exact hle
  | idle => exact le_refl _
  | initialized => exact le_refl _
  | registered => exact le_refl _
  | provisioned => exact le_refl _
  | transferred => exact le_refl _

/-- The initialisation happens once: what it has set does not change. -/
theorem instance_persists (hadmin : env.admin ≠ none)
    (action : Action Address TokenState) :
    (step host p env action).admin = env.admin ∧
      (step host p env action).nativeToken = env.nativeToken ∧
      (step host p env action).minKeeperStake = env.minKeeperStake := by
  have heffect := step_effect host p env action
  generalize step host p env action = env' at heffect
  cases heffect with
  | initialized inv admin nativeToken minKeeperStake _ hnone => exact absurd hnone hadmin
  | executed inv taskId caller task env' _ _ _ hexec =>
      obtain ⟨-, ha, ht, hm, -⟩ := hexec.instance_eq
      exact ⟨ha, ht, hm⟩
  | idle => exact ⟨rfl, rfl, rfl⟩
  | registered => exact ⟨rfl, rfl, rfl⟩
  | provisioned => exact ⟨rfl, rfl, rfl⟩
  | closed => exact ⟨rfl, rfl, rfl⟩
  | transferred => exact ⟨rfl, rfl, rfl⟩

end ChronosKeeper.Anchor
