import ChronosKeeper.Anchor.Contract

/-!
# Store invariants

`WellFormed` is the shape of the stored records: every record lies under its own key, every task
has a positive interval and a positive reward and names a registered keeper, and tasks exist only
after the initialisation. Every step keeps it (`WellFormed.step`), so it holds in every reachable
environment.
-/

set_option autoImplicit false

namespace ChronosKeeper.Anchor

open ChronosKeeper.Foundations

variable {Address TokenState : Type} [DecidableEq Address]

/-- The shape of the stored records. -/
structure WellFormed (env : Env Address TokenState) : Prop where
  keeperAddress : ∀ {a k}, env.keepers.lookup a = some k → k.address = a
  taskId : ∀ {id t}, env.tasks.lookup id = some t → t.taskId = id
  interval_pos : ∀ {id t}, env.tasks.lookup id = some t → 0 < t.executionIntervalLedgers.val
  microReward_pos : ∀ {id t}, env.tasks.lookup id = some t → 0 < t.microRewardPerRun.val
  designated : ∀ {id t}, env.tasks.lookup id = some t →
    ∃ k, env.keepers.lookup t.designatedKeeper = some k
  configured : ∀ {id t}, env.tasks.lookup id = some t → ∃ token, env.nativeToken = some token
  nativeToken_iff : env.nativeToken = none ↔ env.admin = none
  minKeeperStake_iff : env.minKeeperStake = none ↔ env.admin = none

theorem wellFormed_deployed (tokens : TokenState) (ledgerSequence : U32) :
    WellFormed (deployed tokens ledgerSequence : Env Address TokenState) where
  keeperAddress h := by cases h
  taskId h := by cases h
  interval_pos h := by cases h
  microReward_pos h := by cases h
  designated h := by cases h
  configured h := by cases h
  nativeToken_iff := ⟨fun _ => rfl, fun _ => rfl⟩
  minKeeperStake_iff := ⟨fun _ => rfl, fun _ => rfl⟩

namespace WellFormed

variable {host : Host Address TokenState} {p : Profile} {inv : Invocation Address TokenState}
  {env env' : Env Address TokenState}

/-- Only the stores and the configuration matter. -/
theorem congr (h : WellFormed env) (hkeepers : env'.keepers = env.keepers)
    (htasks : env'.tasks = env.tasks) (hadmin : env'.admin = env.admin)
    (htoken : env'.nativeToken = env.nativeToken)
    (hmin : env'.minKeeperStake = env.minKeeperStake) : WellFormed env' where
  keeperAddress hk := h.keeperAddress (hkeepers ▸ hk)
  taskId ht := h.taskId (htasks ▸ ht)
  interval_pos ht := h.interval_pos (htasks ▸ ht)
  microReward_pos ht := h.microReward_pos (htasks ▸ ht)
  designated ht := hkeepers ▸ h.designated (htasks ▸ ht)
  configured ht := htoken ▸ h.configured (htasks ▸ ht)
  nativeToken_iff := by
    rw [hadmin, htoken]
    exact h.nativeToken_iff
  minKeeperStake_iff := by
    rw [hadmin, hmin]
    exact h.minKeeperStake_iff

/-- A keeper record written under its own address. -/
theorem insertKeeper (h : WellFormed env) (k : Keeper Address) :
    WellFormed { env with keepers := env.keepers.insert k.address k } where
  keeperAddress {a k'} hk := by
    rw [FiniteMap.lookup_insert_eq] at hk
    split at hk
    · rename_i ha
      cases hk
      exact ha.symm
    · exact h.keeperAddress hk
  taskId := h.taskId
  interval_pos := h.interval_pos
  microReward_pos := h.microReward_pos
  designated {id t} ht := by
    obtain ⟨kd, hkd⟩ := h.designated ht
    rw [FiniteMap.lookup_insert_eq]
    split
    · exact ⟨k, rfl⟩
    · exact ⟨kd, hkd⟩
  configured := h.configured
  nativeToken_iff := h.nativeToken_iff
  minKeeperStake_iff := h.minKeeperStake_iff

/-- A task written under its own identifier. -/
theorem insertTask (h : WellFormed env) {t : ExecutionTask Address}
    (hinterval : 0 < t.executionIntervalLedgers.val) (hreward : 0 < t.microRewardPerRun.val)
    (hdesignated : ∃ k, env.keepers.lookup t.designatedKeeper = some k)
    (htoken : ∃ token, env.nativeToken = some token) :
    WellFormed { env with tasks := env.tasks.insert t.taskId t } := by
  -- A stored task is the new one or an old one.
  have hcases : ∀ {id t'}, (env.tasks.insert t.taskId t).lookup id = some t' →
      (id = t.taskId ∧ t' = t) ∨ env.tasks.lookup id = some t' := by
    intro id t' ht
    rw [FiniteMap.lookup_insert_eq] at ht
    split at ht
    · rename_i hid
      cases ht
      exact Or.inl ⟨hid, rfl⟩
    · exact Or.inr ht
  refine ⟨h.keeperAddress, ?_, ?_, ?_, ?_, ?_, h.nativeToken_iff, h.minKeeperStake_iff⟩
  · intro id t' ht
    rcases hcases ht with ⟨rfl, rfl⟩ | ht
    · rfl
    · exact h.taskId ht
  · intro id t' ht
    rcases hcases ht with ⟨rfl, rfl⟩ | ht
    · exact hinterval
    · exact h.interval_pos ht
  · intro id t' ht
    rcases hcases ht with ⟨rfl, rfl⟩ | ht
    · exact hreward
    · exact h.microReward_pos ht
  · intro id t' ht
    rcases hcases ht with ⟨rfl, rfl⟩ | ht
    · exact hdesignated
    · exact h.designated ht
  · intro id t' ht
    rcases hcases ht with ⟨rfl, rfl⟩ | ht
    · exact htoken
    · exact h.configured ht

theorem slashed (h : WellFormed env) (D : Address) (k : Keeper Address) (a : SlashAmounts)
    (treasury : I128) : WellFormed (slashed env D k a treasury) :=
  (h.insertKeeper (slashedKeeper k a.newStake)).congr rfl rfl rfl rfl rfl

theorem missed (h : WellFormed env) (taskId : TaskId) (elapsed : U32) :
    WellFormed (missed env taskId elapsed) :=
  h.congr rfl rfl rfl rfl rfl

theorem distributed (h : WellFormed env) {taskId : TaskId} {task : ExecutionTask Address}
    (htask : env.tasks.lookup taskId = some task) (caller : Address) (isSecondary : Bool)
    (d : Distribution Address TokenState) :
    WellFormed (distributed env task caller isSecondary d) := by
  have hinterval : 0 < task.executionIntervalLedgers.val := h.interval_pos htask
  have hreward : 0 < task.microRewardPerRun.val := h.microReward_pos htask
  have hdesignated : ∃ k, env.keepers.lookup task.designatedKeeper = some k := h.designated htask
  have hupdated := h.insertTask
    (t := { task with nextAllowedExecution := d.nextAllowedExecution }) hinterval hreward
    hdesignated (h.configured htask)
  exact (hupdated.insertKeeper
    (executedKeeper d.keeper d.totalExecutions env.ledgerSequence)).congr rfl rfl rfl rfl rfl

theorem executes (h : WellFormed env) {taskId : TaskId} {task : ExecutionTask Address}
    {caller : Address} (htask : env.tasks.lookup taskId = some task)
    (hexec : Executes host p inv env taskId task caller env') : WellFormed env' := by
  cases hexec with
  | designated d => exact h.distributed htask caller false d
  | grace k a treasury d st =>
      have hslash := h.slashed task.designatedKeeper k a treasury
      have hdist := hslash.distributed htask caller true d
      exact hdist.congr rfl rfl rfl rfl rfl
  | postGrace elapsed d => exact (h.missed taskId elapsed).distributed htask caller false d

/-- Every step keeps the shape of the records. -/
theorem step (h : WellFormed env) (action : Action Address TokenState) :
    WellFormed (step host p env action) := by
  have heffect := step_effect host p env action
  generalize Anchor.step host p env action = env' at heffect
  cases heffect with
  | idle => exact h
  | initialized inv admin nativeToken minKeeperStake _ hadmin =>
      have hnone := h.nativeToken_iff.2 hadmin
      -- Without an initialisation there are no tasks.
      have hempty : ∀ {id t}, env.tasks.lookup id = some t → False := fun ht => by
        obtain ⟨token, htoken⟩ := h.configured ht
        rw [hnone] at htoken
        cases htoken
      exact ⟨h.keeperAddress, h.taskId, h.interval_pos, h.microReward_pos, h.designated,
        fun ht => (hempty ht).elim, Iff.intro (fun e => nomatch e) (fun e => nomatch e),
        Iff.intro (fun e => nomatch e) (fun e => nomatch e)⟩
  | registered inv keeper stakeAmount =>
      exact (h.insertKeeper (newKeeper keeper stakeAmount)).congr rfl rfl rfl rfl rfl
  | provisioned inv nextCounter task _ htask =>
      obtain ⟨admin, hadmin, -⟩ := htask.admin
      obtain ⟨k, hk, -⟩ := htask.designated
      have hinterval : 0 < task.executionIntervalLedgers.val := by
        have hne := MachineInt.val_ne htask.interval_ne_zero
        have hzero : (0 : U32).val = 0 := rfl
        have hb := task.executionIntervalLedgers.bounds
        omega
      have htoken : ∃ token, env.nativeToken = some token := by
        cases hn : env.nativeToken with
        | none =>
            rw [h.nativeToken_iff.1 hn] at hadmin
            cases hadmin
        | some token => exact ⟨token, rfl⟩
      exact (h.insertTask hinterval htask.microReward_pos ⟨k, hk⟩ htoken).congr rfl rfl rfl rfl rfl
  | executed inv taskId caller task env' _ htask _ hexec => exact h.executes htask hexec
  | closed => exact h.congr rfl rfl rfl rfl rfl
  | transferred => exact h.congr rfl rfl rfl rfl rfl

end WellFormed

theorem wellFormed_run (host : Host Address TokenState) (p : Profile) (tokens : TokenState)
    (ledgerSequence : U32) (actions : List (Action Address TokenState)) :
    WellFormed (run (step host p) (deployed tokens ledgerSequence) actions) :=
  run_induction (wellFormed_deployed tokens ledgerSequence) (fun _ a h => h.step a) actions

theorem Reachable.wellFormed {host : Host Address TokenState} {p : Profile}
    {env : Env Address TokenState} (h : Reachable host p env) : WellFormed env := by
  obtain ⟨tokens, ledgerSequence, actions, rfl⟩ := h
  exact wellFormed_run host p tokens ledgerSequence actions

end ChronosKeeper.Anchor
