import ChronosKeeper.Anchor.Schedule
import ChronosKeeper.Anchor.Updates

/-!
# The event log and the store

The published events determine the accounting state (`log_determines_state`): the stake and the
counters of every keeper, the flag, the treasury and the schedules are functions of the events
that concern them. `keeperLog` collects the events of one keeper and `KeeperMatches` relates them
to its record; a slash and an execution extend both sides in step (`KeeperMatches.slashRecord`,
`KeeperMatches.creditRecord`), and no other step touches either.

Overflow aborts, and the hash is injective on seeds: the identifier of a new task has no events.
-/

set_option autoImplicit false

namespace ChronosKeeper.Anchor

open ChronosKeeper.Foundations

variable {Address TokenState : Type} [DecidableEq Address]

/-! ## What an event says -/

/-- The stake with which the keeper registers. -/
def Event.registeredStake (a : Address) : Event Address → Option I128
  | .kprReg keeper stakeAmount => if keeper = a then some stakeAmount else none
  | _ => none

/-- The amount the keeper loses in a slash and the stake it is left with. -/
def Event.slashOf (a : Address) : Event Address → Option (I128 × I128)
  | .slashed keeper amountSlashed newStake =>
      if keeper = a then some (amountSlashed, newStake) else none
  | _ => none

/-- The ledger of an execution by the keeper. -/
def Event.executedBy (a : Address) : Event Address → Option U32
  | .taskExec _ keeper ledger _ => if keeper = a then some ledger else none
  | .taskSec _ secondaryKeeper _ ledger _ _ _ => if secondaryKeeper = a then some ledger else none
  | _ => none

/-- The ledger of an execution of the task. -/
def Event.executionOf (id : TaskId) : Event Address → Option U32
  | .taskExec taskId _ ledger _ => if taskId = id then some ledger else none
  | .taskSec taskId _ _ ledger _ _ _ => if taskId = id then some ledger else none
  | _ => none

/-- What a slash leaves to the treasury. -/
def Event.treasuryShare : Event Address → Option Int
  | .taskSec _ _ _ _ slashAmount secondaryReward _ =>
      some (slashAmount.val - secondaryReward.val)
  | _ => none

/-- The events of one keeper: its registrations, its slashes and the ledgers of its executions. -/
structure KeeperLog where
  stakes : List I128
  slashes : List (I128 × I128)
  executions : List U32
  deriving DecidableEq

def keeperLog (a : Address) (events : List (Event Address)) : KeeperLog where
  stakes := events.filterMap (Event.registeredStake a)
  slashes := events.filterMap (Event.slashOf a)
  executions := events.filterMap (Event.executedBy a)

/-- The ledgers of the executions of a task. -/
def executionsOf (id : TaskId) (events : List (Event Address)) : List U32 :=
  events.filterMap (Event.executionOf id)

/-- The shares of the treasury. -/
def treasuryShares (events : List (Event Address)) : List Int :=
  events.filterMap Event.treasuryShare

theorem keeperLog_append (a : Address) (l l' : List (Event Address)) :
    keeperLog a (l ++ l') =
      ⟨(keeperLog a l).stakes ++ (keeperLog a l').stakes,
        (keeperLog a l).slashes ++ (keeperLog a l').slashes,
        (keeperLog a l).executions ++ (keeperLog a l').executions⟩ := by
  simp only [keeperLog, List.filterMap_append]

/-- Events that do not concern the keeper leave its log as it is. -/
theorem keeperLog_append_of_empty {a : Address} {l l' : List (Event Address)}
    (h : keeperLog a l' = ⟨[], [], []⟩) : keeperLog a (l ++ l') = keeperLog a l := by
  rw [keeperLog_append, h]
  simp only [List.append_nil]

omit [DecidableEq Address] in
theorem executionsOf_append (id : TaskId) (l l' : List (Event Address)) :
    executionsOf id (l ++ l') = executionsOf id l ++ executionsOf id l' := List.filterMap_append

omit [DecidableEq Address] in
theorem treasuryShares_append (l l' : List (Event Address)) :
    treasuryShares (l ++ l') = treasuryShares l ++ treasuryShares l' := List.filterMap_append

/-- The filter of a single event, by the condition under which it is kept. -/
theorem filterMap_singleton_of_ite {α β : Type} {f : α → Option β} {e : α} {c : Prop} [Decidable c]
    {b : β} (h : f e = if c then some b else none) :
    [e].filterMap f = if c then [b] else [] := by
  by_cases hc : c
  · rw [if_pos hc] at h ⊢
    exact List.filterMap_cons_some h
  · rw [if_neg hc] at h ⊢
    exact List.filterMap_cons_none h

/-! ## What the log says of the state -/

/-- The record of a keeper is what its events make of it. -/
structure KeeperMatches (log : KeeperLog) (k : Keeper Address) : Prop where
  stakeAmount : ∃ stake, log.stakes = [stake] ∧
    k.stakeAmount.val = stake.val - (log.slashes.map fun s => s.1.val).sum
  newStake : ∀ s, log.slashes.getLast? = some s → k.stakeAmount = s.2
  totalExecutions : k.totalExecutions.val = log.executions.length
  lastExecutionLedger : k.lastExecutionLedger = log.executions.getLast?.getD 0
  ineligible : k.ineligible = true ↔ ∃ s ∈ log.slashes, s.2.val < MIN_KEEPER_STAKE.val

/-- The events determine the records of the keepers, the treasury and the schedules. -/
structure LogDetermines (env : Env Address TokenState) : Prop where
  keeper : ∀ a k, env.keepers.lookup a = some k → KeeperMatches (keeperLog a env.events) k
  treasury : treasury env = (treasuryShares env.events).sum
  task : ∀ id t, env.tasks.lookup id = some t →
    ∀ ledger, (executionsOf id env.events).getLast? = some ledger →
      t.nextAllowedExecution.val = ledger.val + t.executionIntervalLedgers.val

/-- A record matches its events; without a record there are none. -/
def RecordMatches (log : KeeperLog) : Option (Keeper Address) → Prop
  | some k => KeeperMatches log k
  | none => log = ⟨[], [], []⟩

/-- A task is due an interval after its last execution; without a task there are none. -/
def TaskMatches (executions : List U32) : Option (ExecutionTask Address) → Prop
  | some t => ∀ ledger, executions.getLast? = some ledger →
      t.nextAllowedExecution.val = ledger.val + t.executionIntervalLedgers.val
  | none => executions = []

/-- The invariant: every key of the store matches its events. -/
structure Logged (env : Env Address TokenState) : Prop where
  keepers : ∀ a, RecordMatches (keeperLog a env.events) (env.keepers.lookup a)
  tasks : ∀ id, TaskMatches (executionsOf id env.events) (env.tasks.lookup id)
  treasury : treasury env = (treasuryShares env.events).sum

theorem Logged.determines {env : Env Address TokenState} (h : Logged env) : LogDetermines env where
  keeper a k hk := by
    have hmatches := h.keepers a
    rw [hk] at hmatches
    exact hmatches
  treasury := h.treasury
  task id t ht := by
    have hmatches := h.tasks id
    rw [ht] at hmatches
    exact hmatches

variable {host : Host Address TokenState} {inv : Invocation Address TokenState}
  {env env' : Env Address TokenState} {taskId : TaskId} {task : ExecutionTask Address}
  {caller : Address} {k : Keeper Address} {log : KeeperLog}

/-! ## One record -/

namespace KeeperMatches

omit [DecidableEq Address] in
theorem newKeeper (a : Address) (stake : I128) :
    KeeperMatches ⟨[stake], [], []⟩ (newKeeper a stake) where
  stakeAmount := ⟨stake, rfl, (sub_zero _).symm⟩
  newStake s hs := nomatch hs
  totalExecutions := rfl
  lastExecutionLedger := rfl
  ineligible := by
    constructor
    · intro h
      cases h
    · rintro ⟨s, hs, -⟩
      cases hs

omit [DecidableEq Address] in
/-- A slash and its event. -/
theorem slashRecord (h : KeeperMatches log k) {a : SlashAmounts}
    (hslash : IsSlash k.stakeAmount.val a) :
    KeeperMatches { log with slashes := log.slashes ++ [(a.slashAmount, a.newStake)] }
      (slashRecord k) where
  stakeAmount := by
    obtain ⟨stake, hstakes, hval⟩ := h.stakeAmount
    refine ⟨stake, hstakes, ?_⟩
    rw [slashRecord_stakeAmount_val, ← hslash.newStake_eq, hslash.newStake, hval, List.map_append,
      List.sum_append]
    simp only [List.map_cons, List.map_nil, List.sum_cons, List.sum_nil]
    omega
  newStake s hs := by
    rw [List.getLast?_concat] at hs
    cases hs
    apply MachineInt.ext
    rw [slashRecord_stakeAmount_val, hslash.newStake_eq]
  totalExecutions := h.totalExecutions
  lastExecutionLedger := h.lastExecutionLedger
  ineligible := by
    rw [slashRecord_ineligible_iff, h.ineligible, ← hslash.newStake_eq]
    simp only [List.mem_append, List.mem_singleton]
    constructor
    · rintro (hlow | ⟨s, hs, hlow⟩)
      · exact ⟨_, Or.inr rfl, hlow⟩
      · exact ⟨s, Or.inl hs, hlow⟩
    · rintro ⟨s, hs | rfl, hlow⟩
      · exact Or.inr ⟨s, hs, hlow⟩
      · exact Or.inl hlow

omit [DecidableEq Address] in
/-- An execution and its event. -/
theorem creditRecord (h : KeeperMatches log k) (l : U32)
    (hfit : IntTy.u64.InRange (k.totalExecutions.val + 1)) :
    KeeperMatches { log with executions := log.executions ++ [l] } (creditRecord l k) where
  stakeAmount := h.stakeAmount
  newStake := h.newStake
  totalExecutions := by
    have hval : (Anchor.creditRecord l k).totalExecutions.val = k.totalExecutions.val + 1 :=
      MachineInt.val_wrap_of_inRange hfit
    rw [hval, h.totalExecutions, List.length_append, List.length_singleton]
    push_cast
    rfl
  lastExecutionLedger := by
    rw [List.getLast?_concat]
    rfl
  ineligible := h.ineligible

end KeeperMatches

/-! ## The events of an execution -/

/-- The events that a successful execution publishes, in and outside the grace period. -/
inductive ExecutionEvents (env : Env Address TokenState) (taskId : TaskId)
    (task : ExecutionTask Address) (caller : Address) : List (Event Address) → Prop where
  | ordinary (missed : List (Event Address)) (hnot : ¬ InGrace env task)
      (hmissed : missed = [] ∨ ∃ elapsed, missed = [.missed taskId elapsed]) :
      ExecutionEvents env taskId task caller
        (missed ++ [.taskExec taskId caller env.ledgerSequence task.microRewardPerRun])
  | grace (k : Keeper Address) (a : SlashAmounts) (hin : InGrace env task)
      (hk : env.keepers.lookup task.designatedKeeper = some k)
      (hslash : IsSlash k.stakeAmount.val a) :
      ExecutionEvents env taskId task caller
        [.slashed task.designatedKeeper a.slashAmount a.newStake,
          .taskSec taskId caller task.designatedKeeper env.ledgerSequence a.slashAmount
            a.secondaryReward task.microRewardPerRun]

theorem Executes.events (hexec : Executes host .debug inv env taskId task caller env')
    (h : WellFormed env) (htask : env.tasks.lookup taskId = some task) :
    ∃ published, ExecutionEvents env taskId task caller published ∧
      env'.events = env.events ++ published := by
  have hid := h.taskId htask
  cases hexec with
  | designated d hledger =>
      refine ⟨_, .ordinary [] (not_inGrace_of_eq hledger) (Or.inl rfl), ?_⟩
      rw [← hid]
      rfl
  | grace k a t d st hopen hgrace _ _ hk _ hformula =>
      refine ⟨_, .grace k a ⟨hopen, hgrace⟩ hk (isSlash_of_slashFormula (Or.inl rfl) hformula), ?_⟩
      simp only [secondaryPaid, distributed, slashed, if_true, List.append_nil,
        List.append_assoc, List.singleton_append]
  | postGrace elapsed d hgrace =>
      refine ⟨_, .ordinary [.missed taskId elapsed] (not_inGrace_of_lt hgrace)
        (Or.inr ⟨elapsed, rfl⟩), ?_⟩
      rw [← hid, ← List.append_assoc]
      rfl

/-- The log of a keeper after an execution. -/
theorem keeperLog_executed {published : List (Event Address)}
    (hpublished : ExecutionEvents env taskId task caller published) (x : Address)
    (events : List (Event Address)) :
    ∃ s : I128 × I128, keeperLog x (events ++ published) =
      ⟨(keeperLog x events).stakes,
        (keeperLog x events).slashes ++
          (if InGrace env task ∧ x = task.designatedKeeper then [s] else []),
        (keeperLog x events).executions ++ if x = caller then [env.ledgerSequence] else []⟩ ∧
      (InGrace env task → ∃ k a, env.keepers.lookup task.designatedKeeper = some k ∧
        IsSlash k.stakeAmount.val a ∧ s = (a.slashAmount, a.newStake)) := by
  cases hpublished with
  | ordinary missed hnot hmissed =>
      refine ⟨(0, 0), ?_, fun hin => absurd hin hnot⟩
      have hempty : keeperLog x missed = ⟨[], [], []⟩ := by
        rcases hmissed with rfl | ⟨elapsed, rfl⟩ <;> rfl
      have hexecution : keeperLog x
          [.taskExec taskId caller env.ledgerSequence task.microRewardPerRun] =
            ⟨[], [], if x = caller then [env.ledgerSequence] else []⟩ :=
        congrArg (KeeperLog.mk [] []) (filterMap_singleton_of_ite (if_congr eq_comm rfl rfl))
      have hslash : ¬ (InGrace env task ∧ x = task.designatedKeeper) := fun h => hnot h.1
      rw [← List.append_assoc, keeperLog_append, keeperLog_append_of_empty hempty, hexecution,
        if_neg hslash]
      simp only [List.append_nil]
  | grace k a hin hk hslash =>
      refine ⟨(a.slashAmount, a.newStake), ?_, fun _ => ⟨k, a, hk, hslash, rfl⟩⟩
      have hslashed : keeperLog x
          [.slashed task.designatedKeeper a.slashAmount a.newStake] =
            ⟨[], if x = task.designatedKeeper then [(a.slashAmount, a.newStake)] else [], []⟩ :=
        congrArg (KeeperLog.mk [] · []) (filterMap_singleton_of_ite (if_congr eq_comm rfl rfl))
      have hexecution : keeperLog x
          [.taskSec taskId caller task.designatedKeeper env.ledgerSequence a.slashAmount
            a.secondaryReward task.microRewardPerRun] =
            ⟨[], [], if x = caller then [env.ledgerSequence] else []⟩ :=
        congrArg (KeeperLog.mk [] []) (filterMap_singleton_of_ite (if_congr eq_comm rfl rfl))
      rw [List.append_cons, keeperLog_append, keeperLog_append, hslashed, hexecution]
      simp only [List.append_nil, hin, true_and]

theorem executionsOf_executed {published : List (Event Address)}
    (hpublished : ExecutionEvents env taskId task caller published) (id : TaskId)
    (events : List (Event Address)) :
    executionsOf id (events ++ published) =
      executionsOf id events ++ if id = taskId then [env.ledgerSequence] else [] := by
  rw [executionsOf_append]
  cases hpublished with
  | ordinary missed hnot hmissed =>
      have hempty : executionsOf id missed = [] := by
        rcases hmissed with rfl | ⟨elapsed, rfl⟩ <;> rfl
      rw [executionsOf_append, hempty, List.nil_append]
      exact congrArg _ (filterMap_singleton_of_ite (if_congr eq_comm rfl rfl))
  | grace k a hin hk hslash =>
      have hslashed : executionsOf id
          [.slashed task.designatedKeeper a.slashAmount a.newStake] = [] := rfl
      rw [← List.singleton_append, executionsOf_append, hslashed, List.nil_append]
      exact congrArg _ (filterMap_singleton_of_ite (if_congr eq_comm rfl rfl))

theorem treasuryShares_executed {published : List (Event Address)}
    (hpublished : ExecutionEvents env taskId task caller published)
    (events : List (Event Address)) :
    (treasuryShares (events ++ published)).sum =
      (treasuryShares events).sum + graceCredit env task := by
  rw [treasuryShares_append, List.sum_append]
  apply congrArg
  cases hpublished with
  | ordinary missed hnot hmissed =>
      rw [graceCredit_of_not_inGrace hnot]
      rcases hmissed with rfl | ⟨elapsed, rfl⟩ <;> rfl
  | grace k a hin hk hslash =>
      rw [graceCredit_of_inGrace hin hk, ← hslash.treasuryPortion_eq, hslash.treasuryPortion]
      exact add_zero _

/-! ## Steps -/

theorem logged_deployed (tokens : TokenState) (ledgerSequence : U32) :
    Logged (deployed tokens ledgerSequence : Env Address TokenState) where
  keepers _ := rfl
  tasks _ := rfl
  treasury := rfl

/-- What no published event concerns stays matched. -/
theorem Logged.congr (h : Logged env) (hkeepers : env'.keepers = env.keepers)
    (htasks : env'.tasks = env.tasks) (htreasury : env'.treasuryBalance = env.treasuryBalance)
    (hevents : env'.events = env.events) : Logged env' where
  keepers a := by
    rw [hkeepers, hevents]
    exact h.keepers a
  tasks id := by
    rw [htasks, hevents]
    exact h.tasks id
  treasury := by
    unfold Anchor.treasury
    rw [htreasury, hevents]
    exact h.treasury

/-- An execution extends the log of each keeper as it updates its record. -/
theorem recordMatches_executed (hexec : Executes host .debug inv env taskId task caller env')
    (hW : WellFormed env) {published : List (Event Address)}
    (hpublished : ExecutionEvents env taskId task caller published) (x : Address)
    (h : RecordMatches (keeperLog x env.events) (env.keepers.lookup x)) :
    RecordMatches (keeperLog x (env.events ++ published)) (env'.keepers.lookup x) := by
  obtain ⟨s, hlog, hs⟩ := keeperLog_executed hpublished x env.events
  obtain ⟨kc, hkc, hfit⟩ := hexec.counter_fits hW
  rw [hexec.lookup_keepers hW, hlog]
  cases hk : env.keepers.lookup x with
  | none =>
      rw [hk] at h
      -- Neither the caller nor a slashed keeper is without a record.
      have hcaller : x ≠ caller := by
        rintro rfl
        rw [hk] at hkc
        cases hkc
      have hdesignated : ¬ (InGrace env task ∧ x = task.designatedKeeper) := by
        rintro ⟨hin, rfl⟩
        obtain ⟨kd, -, hkd, -⟩ := hs hin
        rw [hk] at hkd
        cases hkd
      rw [if_neg hcaller, if_neg hdesignated, List.append_nil, List.append_nil]
      exact h
  | some k =>
      rw [hk] at h
      have hmatches : KeeperMatches (keeperLog x env.events) k := h
      -- First the slash, if there is one.
      have hslashed : KeeperMatches
          { keeperLog x env.events with
            slashes := (keeperLog x env.events).slashes ++
              if InGrace env task ∧ x = task.designatedKeeper then [s] else [] }
          (if InGrace env task ∧ x = task.designatedKeeper then slashRecord k else k) := by
        split
        · rename_i hboth
          obtain ⟨kd, a, hkd, hslash, rfl⟩ := hs hboth.1
          rw [← hboth.2, hk] at hkd
          cases hkd
          exact hmatches.slashRecord hslash
        · rw [List.append_nil]
          exact hmatches
      by_cases hcaller : x = caller
      · rw [hcaller, hkc] at hk
        cases hk
        rw [if_pos hcaller, Option.map_some]
        simp only [recordAfter, if_pos hcaller]
        apply hslashed.creditRecord
        split
        · exact hfit
        · exact hfit
      · rw [if_neg hcaller, List.append_nil, Option.map_some]
        simp only [recordAfter, if_neg hcaller]
        exact hslashed

theorem Logged.executed (h : Logged env) (hW : WellFormed env)
    (htask : env.tasks.lookup taskId = some task)
    (hexec : Executes host .debug inv env taskId task caller env') : Logged env' := by
  obtain ⟨published, hpublished, hevents⟩ := hexec.events hW htask
  refine ⟨?_, ?_, ?_⟩
  · intro x
    rw [hevents]
    exact recordMatches_executed hexec hW hpublished x (h.keepers x)
  · intro id
    obtain ⟨next, hnext, hlookup⟩ := hexec.lookup_tasks hW htask
    have hval : next.val = env.ledgerSequence.val + task.executionIntervalLedgers.val :=
      Profile.val_of_fit_debug hnext
    rw [hevents, executionsOf_executed hpublished, hlookup]
    by_cases hid : id = taskId
    · rw [if_pos hid, if_pos hid]
      intro ledger hlast
      rw [List.getLast?_concat] at hlast
      cases hlast
      exact hval
    · rw [if_neg hid, if_neg hid, List.append_nil]
      exact h.tasks id
  · rw [hexec.treasury_eq.1, h.treasury, hevents, treasuryShares_executed hpublished]

theorem Logged.registered (h : Logged env) {keeper : Address} (stakeAmount : I128)
    (hnew : env.keepers.lookup keeper = none) : Logged (registered env keeper stakeAmount) where
  keepers x := by
    have hx := h.keepers x
    rw [lookup_keepers_registered]
    by_cases hkeeper : x = keeper
    · subst hkeeper
      rw [hnew] at hx
      have hempty : keeperLog x env.events = ⟨[], [], []⟩ := hx
      have hregistration : keeperLog x [.kprReg x stakeAmount] = ⟨[stakeAmount], [], []⟩ :=
        congrArg (KeeperLog.mk · [] [])
          ((filterMap_singleton_of_ite rfl).trans (if_pos (Eq.refl x)))
      have hlog : keeperLog x (Anchor.registered env x stakeAmount).events =
          ⟨[stakeAmount], [], []⟩ := by
        show keeperLog x (env.events ++ [.kprReg x stakeAmount]) = _
        rw [keeperLog_append, hempty, hregistration]
        rfl
      rw [if_pos rfl, hlog]
      exact KeeperMatches.newKeeper x stakeAmount
    · have hregistration : keeperLog x [.kprReg keeper stakeAmount] = ⟨[], [], []⟩ :=
        congrArg (KeeperLog.mk · [] [])
          ((filterMap_singleton_of_ite rfl).trans (if_neg (Ne.symm hkeeper)))
      have hlog : keeperLog x (Anchor.registered env keeper stakeAmount).events =
          keeperLog x env.events := keeperLog_append_of_empty hregistration
      rw [if_neg hkeeper, hlog]
      exact hx
  tasks id := by
    have hsame : executionsOf id (Anchor.registered env keeper stakeAmount).events =
        executionsOf id env.events :=
      (executionsOf_append id _ _).trans (List.append_nil _)
    rw [hsame]
    exact h.tasks id
  treasury := by
    have hsame : treasuryShares (Anchor.registered env keeper stakeAmount).events =
        treasuryShares env.events :=
      (treasuryShares_append _ _).trans (List.append_nil _)
    rw [hsame]
    exact h.treasury

theorem Logged.provisioned (h : Logged env) (nextCounter : U32)
    (hnew : env.tasks.lookup task.taskId = none) : Logged (provisioned env nextCounter task) where
  keepers x := by
    have hlog : keeperLog x (Anchor.provisioned env nextCounter task).events =
        keeperLog x env.events := keeperLog_append_of_empty rfl
    rw [hlog]
    exact h.keepers x
  tasks id := by
    have hsame : executionsOf id (Anchor.provisioned env nextCounter task).events =
        executionsOf id env.events :=
      (executionsOf_append id _ _).trans (List.append_nil _)
    have hid := h.tasks id
    rw [hsame, lookup_tasks_provisioned]
    split
    · rename_i heq
      -- The identifier was not in use, so the new task has not been executed.
      rw [heq, hnew] at hid
      have hempty : executionsOf task.taskId env.events = [] := hid
      intro ledger hlast
      rw [heq, hempty] at hlast
      cases hlast
    · exact hid
  treasury := by
    have hsame : treasuryShares (Anchor.provisioned env nextCounter task).events =
        treasuryShares env.events :=
      (treasuryShares_append _ _).trans (List.append_nil _)
    rw [hsame]
    exact h.treasury

theorem Logged.step (hsha : Function.Injective host.sha256) (hS : Scheduled host env)
    (h : Logged env) (action : Action Address TokenState) :
    Logged (step host .debug env action) := by
  have heffect := step_effect host .debug env action
  generalize Anchor.step host .debug env action = env' at heffect
  cases heffect with
  | registered inv keeper stakeAmount _ _ _ hnew => exact h.registered stakeAmount hnew
  | provisioned inv nextCounter task _ htask =>
      exact h.provisioned nextCounter (lookup_eq_none_of_provisioning hsha hS.freshIds htask)
  | executed inv taskId caller task env' _ htask _ hexec =>
      exact h.executed hS.wellFormed htask hexec
  | idle => exact h
  | initialized => exact h.congr rfl rfl rfl rfl
  | closed => exact h.congr rfl rfl rfl rfl
  | transferred => exact h.congr rfl rfl rfl rfl

/-! ## Runs -/

/-- At every point of every run the events published so far determine the accounting state. -/
theorem log_determines_state (host : Host Address TokenState)
    (hsha : Function.Injective host.sha256) (tokens : TokenState) (ledgerSequence : U32)
    (actions : List (Action Address TokenState)) :
    LogDetermines (run (step host .debug) (deployed tokens ledgerSequence) actions) := by
  have hstep : ∀ env (action : Action Address TokenState), Scheduled host env ∧ Logged env →
      Scheduled host (step host .debug env action) ∧ Logged (step host .debug env action) :=
    fun env action h => ⟨h.1.step action, h.2.step hsha h.1 action⟩
  have hrun := run_induction
    ⟨scheduled_deployed tokens ledgerSequence, logged_deployed tokens ledgerSequence⟩ hstep actions
  exact hrun.2.determines

/-- A keeper slashed once, at ledger 11, and executing at ledger 21. -/
theorem log_determines_state_sample :
    let id := sampleSha256 (taskSeed 0 0)
    let env := run (step sampleHost .debug) (deployed (sampleTokens 1000) 0)
      [.call sampleInvocation (.initializeContract 2 1 1),
        .call sampleInvocation (.registerKeeper 3 400),
        .call sampleInvocation (.registerKeeper 4 500),
        .call sampleInvocation (.provisionTask 5 10 30 3), .closeLedger 11,
        .call sampleInvocation (.executeDripSplit id 4), .closeLedger 21,
        .call sampleInvocation (.executeDripSplit id 3)]
    keeperLog 3 env.events = ⟨[400], [(20, 380)], [21]⟩ ∧ LogDetermines env := by
  intro id env
  refine ⟨by decide +kernel, ?_⟩
  exact log_determines_state sampleHost sampleSha256_injective (sampleTokens 1000) 0 _

end ChronosKeeper.Anchor
