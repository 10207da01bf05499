import ChronosKeeper.Anchor.Records

/-!
# Auditing the events

An auditor sees only the published events, each with the ledger it was published at. It keeps a
`Book` of the keepers, the tasks and the treasury, and checks every event against it: who executes
in which region, that a missed window is announced before its execution and a slash before the
secondary execution it pays for, the amounts of a slash, the reward and the identifier of a task.
`Book.read` refuses an event that does not fit.

The journal of every run passes the audit, and the book it leaves behind is the store of the
contract (`journal_audited`): nothing that the auditor tracks changes without an event, and no
event says anything else than what has happened. Overflow aborts throughout.
-/

set_option autoImplicit false

namespace ChronosKeeper.Anchor

open ChronosKeeper.Foundations

/-! ## The auditor -/

/-- What the last event has announced: a slash or a missed window, whose execution has yet to be
published. -/
inductive Announced (Address : Type) where
  | nothing
  | slash (keeper : Address) (amountSlashed : I128)
  | miss (taskId : TaskId) (ledgersElapsed : U32)
  deriving DecidableEq

/-- Whether an execution of a task by `caller` may follow as an ordinary one: in its window by the
designated keeper, or after the grace period once the missed window has been announced. -/
def Announced.Allows {Address : Type} (ledger : U32) (task : ExecutionTask Address)
    (caller : Address) : Announced Address → Prop
  | .nothing =>
      regionOf task.nextAllowedExecution.val ledger.val = .designated ∧
        caller = task.designatedKeeper
  | .miss taskId ledgersElapsed =>
      regionOf task.nextAllowedExecution.val ledger.val = .postGrace ∧ taskId = task.taskId ∧
        ledgersElapsed.val = ledger.val - task.nextAllowedExecution.val
  | .slash _ _ => False

instance {Address : Type} [DecidableEq Address] (ledger : U32) (task : ExecutionTask Address)
    (caller : Address) :
    (announced : Announced Address) → Decidable (announced.Allows ledger task caller)
  | .nothing => inferInstanceAs (Decidable (_ ∧ _))
  | .miss _ _ => inferInstanceAs (Decidable (_ ∧ _ ∧ _))
  | .slash _ _ => inferInstanceAs (Decidable False)

/-- What an auditor has learnt from the events. -/
structure Book (Address : Type) where
  keepers : Address → Option (Keeper Address)
  tasks : TaskId → Option (ExecutionTask Address)
  taskCounter : U32
  treasury : Int
  announced : Announced Address

namespace Book

variable {Address : Type}

/-- The book before the first event. -/
def empty : Book Address where
  keepers _ := none
  tasks _ := none
  taskCounter := 0
  treasury := 0
  announced := .nothing

variable [DecidableEq Address]

/-- The execution of a task by `caller`. -/
def execute (b : Book Address) (ledger : U32) (task : ExecutionTask Address) (caller : Address) :
    Option (Book Address) := do
  let keeper ← b.keepers caller
  let next ← Profile.debug.add ledger task.executionIntervalLedgers
  let total ← Profile.debug.add keeper.totalExecutions 1
  return { b with
    keepers := Function.update b.keepers caller (some (executedKeeper keeper total ledger))
    tasks := Function.update b.tasks task.taskId (some { task with nextAllowedExecution := next })
    announced := .nothing }

/-- The book after an event, or `none` if the event does not fit. -/
def read (sha256 : BytesN 8 → TaskId) (b : Book Address) (entry : U32 × Event Address) :
    Option (Book Address) :=
  let ledger := entry.1
  match entry.2 with
  | .kprReg keeper stakeAmount =>
      if b.announced = .nothing ∧ b.keepers keeper = none then
        some { b with
          keepers := Function.update b.keepers keeper (some (newKeeper keeper stakeAmount)) }
      else none
  | .taskProv taskId targetDripList executionIntervalLedgers microRewardPerRun designatedKeeper =>
      if b.announced = .nothing ∧ taskId = sha256 (taskSeed b.taskCounter ledger) ∧
          executionIntervalLedgers ≠ 0 ∧ 0 < microRewardPerRun.val ∧
          (b.keepers designatedKeeper).map Keeper.ineligible = some false then do
        let nextAllowedExecution ← Profile.debug.add ledger executionIntervalLedgers
        let taskCounter ← Profile.debug.add b.taskCounter 1
        return { b with
          tasks := Function.update b.tasks taskId (some
            { taskId, targetDripList, executionIntervalLedgers, nextAllowedExecution,
              microRewardPerRun, designatedKeeper })
          taskCounter }
      else none
  | .slashed keeper amountSlashed newStake => do
      let k ← b.keepers keeper
      if b.announced = .nothing ∧ amountSlashed.val = (k.stakeAmount.val * 5).tdiv 100 ∧
          newStake.val = k.stakeAmount.val - amountSlashed.val then
        some { b with
          keepers := Function.update b.keepers keeper (some (slashedKeeper k newStake))
          announced := .slash keeper amountSlashed }
      else none
  | .missed taskId ledgersElapsed =>
      if b.announced = .nothing then some { b with announced := .miss taskId ledgersElapsed }
      else none
  | .taskExec taskId keeper executionLedger reward => do
      let task ← b.tasks taskId
      if executionLedger = ledger ∧ reward = task.microRewardPerRun ∧
          b.announced.Allows ledger task keeper then b.execute ledger task keeper
      else none
  | .taskSec taskId secondaryKeeper designatedKeeper executionLedger slashAmount secondaryReward
      microReward => do
      let task ← b.tasks taskId
      if executionLedger = ledger ∧ microReward = task.microRewardPerRun ∧
          regionOf task.nextAllowedExecution.val ledger.val = .grace ∧
          designatedKeeper = task.designatedKeeper ∧ secondaryKeeper ≠ designatedKeeper ∧
          b.announced = .slash designatedKeeper slashAmount ∧
          secondaryReward.val = slashAmount.val.tdiv 2 then
        ({ b with treasury := b.treasury + (slashAmount.val - secondaryReward.val) }).execute ledger
          task secondaryKeeper
      else none
  -- A call that publishes this event fails, so that the event is never seen.
  | .zeroSlsh _ => none

/-- The book after a list of events. -/
def audit (sha256 : BytesN 8 → TaskId) (b : Book Address) (journal : List (U32 × Event Address)) :
    Option (Book Address) := journal.foldlM (read sha256) b

/-- The book of an environment. -/
def ofEnv {TokenState : Type} (env : Env Address TokenState) : Book Address where
  keepers := env.keepers.lookup
  tasks := env.tasks.lookup
  taskCounter := env.taskCounter.getD 0
  treasury := Anchor.treasury env
  announced := .nothing

end Book

variable {Address TokenState : Type} [DecidableEq Address]

/-- The events an action publishes, with the ledger it takes place at. -/
def entries (host : Host Address TokenState) (p : Profile) (env : Env Address TokenState)
    (action : Action Address TokenState) : List (U32 × Event Address) :=
  ((step host p env action).events.drop env.events.length).map (Prod.mk env.ledgerSequence)

/-- The journal of a run. -/
def journal (host : Host Address TokenState) (p : Profile) (env : Env Address TokenState)
    (actions : List (Action Address TokenState)) : List (U32 × Event Address) :=
  emissions (step host p) (entries host p) env actions

variable {host : Host Address TokenState} {inv : Invocation Address TokenState}
  {env env' : Env Address TokenState} {taskId : TaskId} {task : ExecutionTask Address}
  {caller : Address}

/-! ## Reading -/

namespace Book

variable {sha256 : BytesN 8 → TaskId} {b b' : Book Address} {ledger : U32}

theorem audit_cons {entry : U32 × Event Address} (h : b.read sha256 entry = some b')
    (journal : List (U32 × Event Address)) :
    b.audit sha256 (entry :: journal) = b'.audit sha256 journal := by
  unfold audit
  rw [List.foldlM_cons, h]
  rfl

theorem read_taskExec (htask : b.tasks taskId = some task)
    (hallows : b.announced.Allows ledger task caller) :
    b.read sha256 (ledger, .taskExec taskId caller ledger task.microRewardPerRun) =
      b.execute ledger task caller := by
  unfold read
  simp only [htask, Option.bind_eq_bind, Option.bind_some, hallows, and_self, if_true]

theorem read_taskSec (htask : b.tasks taskId = some task)
    (hregion : regionOf task.nextAllowedExecution.val ledger.val = .grace)
    (hcaller : caller ≠ task.designatedKeeper) {slashAmount secondaryReward : I128}
    (hannounced : b.announced = .slash task.designatedKeeper slashAmount)
    (hreward : secondaryReward.val = slashAmount.val.tdiv 2) :
    b.read sha256 (ledger, .taskSec taskId caller task.designatedKeeper ledger slashAmount
        secondaryReward task.microRewardPerRun) =
      ({ b with treasury := b.treasury + (slashAmount.val - secondaryReward.val) }).execute ledger
        task caller := by
  unfold read
  simp only [htask, Option.bind_eq_bind, Option.bind_some, hregion, hannounced, hreward, ne_eq,
    hcaller, not_false_eq_true, and_self, if_true]

theorem read_slashed {keeper : Address} {k : Keeper Address} {a : SlashAmounts}
    (hk : b.keepers keeper = some k) (hannounced : b.announced = .nothing)
    (hslash : IsSlash k.stakeAmount.val a) :
    b.read sha256 (ledger, .slashed keeper a.slashAmount a.newStake) =
      some { b with
        keepers := Function.update b.keepers keeper (some (slashedKeeper k a.newStake))
        announced := .slash keeper a.slashAmount } := by
  have hboth : a.slashAmount.val = (k.stakeAmount.val * 5).tdiv 100 ∧
      a.newStake.val = k.stakeAmount.val - a.slashAmount.val :=
    ⟨hslash.slashAmount, hslash.newStake⟩
  unfold read
  simp only [hk, Option.bind_eq_bind, Option.bind_some]
  rw [if_pos ⟨hannounced, hboth⟩]

theorem read_missed (taskId : TaskId) (ledgersElapsed : U32) (hannounced : b.announced = .nothing) :
    b.read sha256 (ledger, .missed taskId ledgersElapsed) =
      some { b with announced := .miss taskId ledgersElapsed } := if_pos hannounced

end Book

/-! ## Executions -/

/-- A distribution is the execution that the book expects. -/
theorem execute_distributed (h : WellFormed env) (isSecondary : Bool)
    {d : Distribution Address TokenState} (hd : IsDistribution host .debug inv env task caller d)
    (announced : Announced Address) :
    ({ Book.ofEnv env with announced }).execute env.ledgerSequence task caller =
      some (Book.ofEnv (distributed env task caller isSecondary d)) := by
  have hkeepers : Function.update env.keepers.lookup caller
      (some (executedKeeper d.keeper d.totalExecutions env.ledgerSequence)) =
        (distributed env task caller isSecondary d).keepers.lookup := by
    funext x
    rw [Function.update_apply, lookup_keepers_distributed task h hd.keeper]
  have htasks : Function.update env.tasks.lookup task.taskId
      (some { task with nextAllowedExecution := d.nextAllowedExecution }) =
        (distributed env task caller isSecondary d).tasks.lookup := by
    funext id
    rw [Function.update_apply]
    exact (FiniteMap.lookup_insert_eq _ _ _ _).symm
  unfold Book.execute
  simp only [Book.ofEnv, hd.keeper, hd.nextAllowedExecution, hd.totalExecutions,
    Option.bind_eq_bind, Option.bind_some, Option.pure_def, hkeepers, htasks]
  rfl

/-- The audit of the events that an execution publishes leads from the book before it to the book
after it. -/
theorem audit_executed (h : WellFormed env) (htask : env.tasks.lookup taskId = some task)
    (hexec : Executes host .debug inv env taskId task caller env') :
    ∃ published, env'.events = env.events ++ published ∧
      (Book.ofEnv env).audit host.sha256 (published.map (Prod.mk env.ledgerSequence)) =
        some (Book.ofEnv env') := by
  have hid := h.taskId htask
  cases hexec with
  | designated d hledger hcaller hd =>
      have hregion : regionOf task.nextAllowedExecution.val env.ledgerSequence.val = .designated :=
        regionOf_eq_designated hledger
      have hread : (Book.ofEnv env).read host.sha256
          (env.ledgerSequence, .taskExec taskId caller env.ledgerSequence task.microRewardPerRun) =
            some (Book.ofEnv (distributed env task caller false d)) := by
        rw [Book.read_taskExec (b := Book.ofEnv env) htask ⟨hregion, hcaller⟩]
        exact execute_distributed h false hd .nothing
      refine ⟨[.taskExec taskId caller env.ledgerSequence task.microRewardPerRun], ?_, ?_⟩
      · rw [← hid]
        rfl
      · exact Book.audit_cons hread []
  | postGrace elapsed d hgrace _ helapsed hd =>
      have hregion : regionOf task.nextAllowedExecution.val env.ledgerSequence.val = .postGrace :=
        regionOf_eq_postGrace hgrace
      have hmissed : (Book.ofEnv env).read host.sha256
          (env.ledgerSequence, .missed taskId elapsed) =
            some { Book.ofEnv env with announced := .miss taskId elapsed } :=
        Book.read_missed taskId elapsed rfl
      have hread : ({ Book.ofEnv env with announced := .miss taskId elapsed }).read host.sha256
          (env.ledgerSequence, .taskExec taskId caller env.ledgerSequence task.microRewardPerRun) =
            some (Book.ofEnv (distributed (missed env taskId elapsed) task caller false d)) := by
        rw [Book.read_taskExec (b := { Book.ofEnv env with announced := .miss taskId elapsed })
          htask ⟨hregion, hid.symm, helapsed⟩]
        exact execute_distributed (h.missed taskId elapsed) false hd (.miss taskId elapsed)
      refine ⟨[.missed taskId elapsed,
        .taskExec taskId caller env.ledgerSequence task.microRewardPerRun], ?_, ?_⟩
      · rw [← hid]
        exact List.append_assoc _ _ _
      · exact (Book.audit_cons hmissed _).trans (Book.audit_cons hread [])
  | grace k a t d st hopen hgrace hne _ hk _ hformula htreasury hd hpay =>
      have hregion : regionOf task.nextAllowedExecution.val env.ledgerSequence.val = .grace :=
        regionOf_eq_grace hopen hgrace
      have hslash := isSlash_of_slashFormula (Or.inl rfl) hformula
      -- The slash is read first, and the treasury is booked with the execution.
      have hkeepers : Function.update env.keepers.lookup task.designatedKeeper
          (some (slashedKeeper k a.newStake)) =
            (slashed env task.designatedKeeper k a t).keepers.lookup := by
        funext x
        rw [Function.update_apply, lookup_keepers_slashed h hk]
      have hgrown : treasury env + (a.slashAmount.val - a.secondaryReward.val) =
          treasury (slashed env task.designatedKeeper k a t) := by
        rw [← hslash.treasuryPortion]
        exact (Profile.val_of_fit_debug htreasury).symm
      have hslashed : (Book.ofEnv env).read host.sha256
          (env.ledgerSequence, .slashed task.designatedKeeper a.slashAmount a.newStake) =
            some { Book.ofEnv (slashed env task.designatedKeeper k a t) with
              treasury := treasury env
              announced := .slash task.designatedKeeper a.slashAmount } := by
        rw [Book.read_slashed (b := Book.ofEnv env) hk rfl hslash]
        simp only [Book.ofEnv, hkeepers]
        rfl
      have hread : ({ Book.ofEnv (slashed env task.designatedKeeper k a t) with
              treasury := treasury env
              announced := .slash task.designatedKeeper a.slashAmount }).read host.sha256
          (env.ledgerSequence, .taskSec taskId caller task.designatedKeeper env.ledgerSequence
            a.slashAmount a.secondaryReward task.microRewardPerRun) =
            some (Book.ofEnv
              (distributed (slashed env task.designatedKeeper k a t) task caller true d)) := by
        rw [Book.read_taskSec htask hregion hne rfl hslash.secondaryReward]
        simp only [hgrown]
        exact execute_distributed (h.slashed task.designatedKeeper k a t) true hd
          (.slash task.designatedKeeper a.slashAmount)
      refine ⟨[.slashed task.designatedKeeper a.slashAmount a.newStake,
        .taskSec taskId caller task.designatedKeeper env.ledgerSequence a.slashAmount
          a.secondaryReward task.microRewardPerRun], ?_, ?_⟩
      · simp only [secondaryPaid, distributed, slashed, if_true, List.append_nil,
          List.append_assoc, List.singleton_append]
      · exact (Book.audit_cons hslashed _).trans (Book.audit_cons hread [])

/-! ## Steps and runs -/

variable (host) in
/-- The auditor follows every step. -/
theorem audit_step (h : WellFormed env) (action : Action Address TokenState) :
    ∃ published, (step host .debug env action).events = env.events ++ published ∧
      (Book.ofEnv env).audit host.sha256 (published.map (Prod.mk env.ledgerSequence)) =
        some (Book.ofEnv (step host .debug env action)) := by
  have heffect := step_effect host .debug env action
  generalize step host .debug env action = env' at heffect
  have hnothing : ∃ published, env.events = env.events ++ published ∧
      (Book.ofEnv env).audit host.sha256 (published.map (Prod.mk env.ledgerSequence)) =
        some (Book.ofEnv env) := ⟨[], (List.append_nil _).symm, rfl⟩
  cases heffect with
  | idle => exact hnothing
  | initialized => exact hnothing
  | closed => exact hnothing
  | transferred => exact hnothing
  | registered inv keeper stakeAmount _ _ _ hnew =>
      have hkeepers : Function.update env.keepers.lookup keeper
          (some (newKeeper keeper stakeAmount)) =
            (registered env keeper stakeAmount).keepers.lookup := by
        funext x
        rw [Function.update_apply, lookup_keepers_registered]
      have hread : (Book.ofEnv env).read host.sha256
          (env.ledgerSequence, .kprReg keeper stakeAmount) =
            some (Book.ofEnv (registered env keeper stakeAmount)) := by
        unfold Book.read Book.ofEnv
        simp only [hnew, and_self, if_true, hkeepers]
        rfl
      exact ⟨[.kprReg keeper stakeAmount], rfl, Book.audit_cons hread []⟩
  | provisioned inv nextCounter task _ htask =>
      obtain ⟨k, hk, heligible⟩ := htask.designated
      have htasks : Function.update env.tasks.lookup task.taskId (some task) =
          (provisioned env nextCounter task).tasks.lookup := by
        funext id
        rw [Function.update_apply, lookup_tasks_provisioned]
      have hread : (Book.ofEnv env).read host.sha256
          (env.ledgerSequence, .taskProv task.taskId task.targetDripList
            task.executionIntervalLedgers task.microRewardPerRun task.designatedKeeper) =
            some (Book.ofEnv (provisioned env nextCounter task)) := by
        unfold Book.read Book.ofEnv
        simp only [hk, Option.map_some, heligible, htask.microReward_pos, htask.taskId.symm,
          htask.interval_ne_zero, ne_eq, not_false_eq_true, and_self, if_true,
          htask.nextAllowedExecution, htask.counter, Option.bind_eq_bind, Option.bind_some,
          htasks, Option.pure_def]
        rfl
      exact ⟨[_], rfl, Book.audit_cons hread []⟩
  | executed inv taskId caller task env' _ htask _ hexec => exact audit_executed h htask hexec

/-- Every step appends its entries to the events, and the auditor follows them. -/
theorem audit_entries (h : WellFormed env) (action : Action Address TokenState) :
    (step host .debug env action).events =
        env.events ++ (entries host .debug env action).map Prod.snd ∧
      (Book.ofEnv env).audit host.sha256 (entries host .debug env action) =
        some (Book.ofEnv (step host .debug env action)) := by
  obtain ⟨published, hevents, haudit⟩ := audit_step host h action
  have hentries : entries host .debug env action =
      published.map (Prod.mk env.ledgerSequence) := by
    unfold entries
    rw [hevents, List.drop_left]
  rw [hentries]
  refine ⟨?_, haudit⟩
  rw [hevents, List.map_map]
  exact congrArg _ (List.map_id published).symm

/-- The journal of every run lists exactly the published events, and its audit ends with the
keepers, the tasks, the task counter and the treasury of the contract. -/
theorem journal_audited (host : Host Address TokenState) (tokens : TokenState)
    (ledgerSequence : U32) (actions : List (Action Address TokenState)) :
    let start := deployed tokens ledgerSequence
    let final := run (step host .debug) start actions
    final.events = (journal host .debug start actions).map Prod.snd ∧
      Book.empty.audit host.sha256 (journal host .debug start actions) =
        some (Book.ofEnv final) := by
  intro start final
  have hstart : WellFormed start := wellFormed_deployed tokens ledgerSequence
  have hkept : ∀ env (action : Action Address TokenState), WellFormed env →
      WellFormed (step host .debug env action) := fun _ action h => h.step action
  have hread : ∀ env (action : Action Address TokenState), WellFormed env →
      (entries host .debug env action).foldlM (Book.read host.sha256) (Book.ofEnv env) =
        some (Book.ofEnv (step host .debug env action)) :=
    fun _ action h => (audit_entries h action).2
  constructor
  · -- Nothing was published before the run.
    have hlog : final.events = start.events ++ (journal host .debug start actions).map Prod.snd :=
      log_eq_append_emissions hkept (fun _ action h => (audit_entries h action).1) actions start
        hstart
    rw [hlog]
    rfl
  · exact replay_emissions hkept hread actions start hstart

/-- A second execution in the same window is refused. -/
example :
    let id := sampleSha256 (taskSeed 0 0)
    Book.empty.audit sampleSha256
      [(0, .kprReg 3 400), (0, .taskProv id 5 10 30 3), (10, .taskExec id 3 10 30),
        (10, .taskExec id 3 10 30)] = none := by
  decide +kernel

end ChronosKeeper.Anchor
