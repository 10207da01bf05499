import ChronosKeeper.Foundations.MachineInt
import ChronosKeeper.Foundations.FiniteMap
import ChronosKeeper.Foundations.Transaction
import ChronosKeeper.Foundations.Token

/-!
# Data model of the Anchor contract

The records of `chronos-types`, the storage keys, errors and events of `the-anchor`, and the part
of the Soroban host that the contract calls.

`Env` holds everything an invocation reads or writes: one field for each storage key (the
`Keeper(_)` and `Task(_)` keys as finite maps), the published events, the ledger sequence and the
balances of the tokens. `Host` collects the functions of the host that the contract calls but
does not define, and `Invocation` what differs from one invocation to the next: who has
authorised it and what the called drip list does.
-/

set_option autoImplicit false

namespace ChronosKeeper.Anchor

open ChronosKeeper.Foundations

/-- `BytesN<n>`. -/
abbrev BytesN (n : Nat) := Vector UInt8 n

/-- The 32-byte identifier of a task. -/
abbrev TaskId := BytesN 32

/-- On-chain record of a registered keeper. -/
structure Keeper (Address : Type) where
  address : Address
  stakeAmount : I128
  lastExecutionLedger : U32
  totalExecutions : U64
  ineligible : Bool
  deriving DecidableEq

/-- On-chain record of a provisioned recurring execution task. -/
structure ExecutionTask (Address : Type) where
  taskId : TaskId
  targetDripList : Address
  executionIntervalLedgers : U32
  nextAllowedExecution : U32
  microRewardPerRun : I128
  designatedKeeper : Address
  deriving DecidableEq

/-- The errors the contract returns. -/
inductive ContractError where
  | stakeBelowMinimum
  | keeperAlreadyRegistered
  | keeperNotFound
  | invalidInterval
  | invalidReward
  | unauthorizedCaller
  | invalidDripList
  | taskNotFound
  | tooEarlyToExecute
  | unauthorizedExecutor
  | dripListInvocationFailed
  | insufficientRewardBalance
  | gracePeriodActive
  | gracePeriodExpired
  | callerNotSecondaryEligible
  | slashOnZeroStake
  | alreadyInitialized
  | ineligibleKeeper
  deriving DecidableEq, Repr

/-- The ways an invocation fails: an error returned by the contract, a panic of an `expect` with
its message, or another trap (missing authorisation, an overflow, a failed call into another
contract). -/
inductive Failure where
  | error (e : ContractError)
  | expect (message : String)
  | trap
  deriving DecidableEq, Repr

/-- Published events, named after their topic symbols. -/
inductive Event (Address : Type) where
  | kprReg (keeper : Address) (stakeAmount : I128)
  | slashed (keeper : Address) (amountSlashed newStake : I128)
  | zeroSlsh (keeper : Address)
  | taskProv (taskId : TaskId) (targetDripList : Address) (executionIntervalLedgers : U32)
      (microRewardPerRun : I128) (designatedKeeper : Address)
  | taskExec (taskId : TaskId) (keeper : Address) (ledger : U32) (reward : I128)
  | taskSec (taskId : TaskId) (secondaryKeeper designatedKeeper : Address) (ledger : U32)
      (slashAmount secondaryReward microReward : I128)
  | missed (taskId : TaskId) (ledgersElapsed : U32)
  deriving DecidableEq

/-- The environment of an invocation. The storage keys `Admin`, `NativeToken`, `MinKeeperStake`
and `TaskCounter` (instance storage) and `Keeper(_)`, `Task(_)` and `TreasuryBalance` (persistent
storage) have a field each. -/
structure Env (Address TokenState : Type) where
  ledgerSequence : U32
  admin : Option Address
  nativeToken : Option Address
  minKeeperStake : Option I128
  taskCounter : Option U32
  keepers : FiniteMap Address (Keeper Address)
  tasks : FiniteMap TaskId (ExecutionTask Address)
  treasuryBalance : Option I128
  events : List (Event Address)
  tokens : TokenState

/-- The host functions the contract relies on. -/
structure Host (Address TokenState : Type) where
  /-- The token contracts reached through `TokenClient`. -/
  token : TokenContract Address TokenState
  /-- `env.crypto().sha256` on an 8-byte seed. -/
  sha256 : BytesN 8 → TaskId
  /-- `env.current_contract_address()`. -/
  currentContractAddress : Address

/-- What a single invocation brings with it. -/
structure Invocation (Address TokenState : Type) where
  /-- The addresses whose authorisation the invocation carries. -/
  authorized : Address → Bool
  /-- The balances after the call `distribute_wave_splits` of a drip list, or `none` if that call
  fails. The host forbids re-entry, so the called contract does not reach the storage of the
  Anchor. -/
  distributeWaveSplits : Address → TokenState → Option TokenState

/-- Contract code: it reads and writes the environment and may fail. -/
abbrev AnchorM (Address TokenState : Type) := Tx (Env Address TokenState) Failure

section Primitives

variable {Address TokenState : Type}

/-- `address.require_auth()`. -/
def requireAuth (inv : Invocation Address TokenState) (address : Address) :
    AnchorM Address TokenState Unit :=
  Tx.reject (inv.authorized address = false) .trap

/-- The result of an arithmetic operation; an aborting operation traps. -/
def arith {α : Type} (o : Option α) : AnchorM Address TokenState α := Tx.require o .trap

/-- `env.events().publish(..)`. -/
def publish (e : Event Address) : AnchorM Address TokenState Unit :=
  modify fun env => { env with events := env.events ++ [e] }

theorem outcome_publish (e : Event Address) (env : Env Address TokenState) :
    (publish e).outcome env = .ok ((), { env with events := env.events ++ [e] }) := rfl

theorem outcome_requireAuth_eq_ok {inv : Invocation Address TokenState} {address : Address}
    {env env' : Env Address TokenState} {u : Unit} :
    (requireAuth inv address).outcome env = .ok (u, env') ↔
      inv.authorized address = true ∧ env' = env := by
  unfold requireAuth
  rw [Tx.outcome_reject_eq_ok, Bool.not_eq_false]

theorem outcome_requireAuth {inv : Invocation Address TokenState} {address : Address}
    (h : inv.authorized address = true) (env : Env Address TokenState) :
    (requireAuth inv address).outcome env = .ok ((), env) :=
  outcome_requireAuth_eq_ok.2 ⟨h, rfl⟩

theorem outcome_arith_eq_ok {α : Type} {o : Option α} {a : α}
    {env env' : Env Address TokenState} :
    (arith o).outcome env = .ok (a, env') ↔ o = some a ∧ env' = env :=
  Tx.outcome_require_eq_ok

section Bind

variable {β : Type} {env : Env Address TokenState} {r : β × Env Address TokenState}

theorem outcome_requireAuth_bind_eq_ok {inv : Invocation Address TokenState} {address : Address}
    {f : Unit → AnchorM Address TokenState β} :
    (requireAuth inv address >>= f).outcome env = .ok r ↔
      inv.authorized address = true ∧ (f ()).outcome env = .ok r := by
  unfold requireAuth
  rw [Tx.outcome_reject_bind_eq_ok, Bool.not_eq_false]

theorem outcome_arith_bind_eq_ok {α : Type} {o : Option α}
    {f : α → AnchorM Address TokenState β} :
    (arith o >>= f).outcome env = .ok r ↔ ∃ a, o = some a ∧ (f a).outcome env = .ok r :=
  Tx.outcome_require_bind_eq_ok

theorem outcome_publish_bind {e : Event Address} {f : Unit → AnchorM Address TokenState β} :
    (publish e >>= f).outcome env = (f ()).outcome { env with events := env.events ++ [e] } :=
  Tx.outcome_bind_of_ok (outcome_publish e env)

end Bind

end Primitives

/-! ## Event emission -/

section Events

variable {Address TokenState : Type}

def emitKeeperRegistered (keeper : Address) (stakeAmount : I128) :
    AnchorM Address TokenState Unit :=
  publish (.kprReg keeper stakeAmount)

def emitSlashApplied (keeper : Address) (amountSlashed newStake : I128) :
    AnchorM Address TokenState Unit :=
  publish (.slashed keeper amountSlashed newStake)

def emitZeroSlash (keeper : Address) : AnchorM Address TokenState Unit :=
  publish (.zeroSlsh keeper)

def emitTaskProvisioned (taskId : TaskId) (targetDripList : Address)
    (executionIntervalLedgers : U32) (microRewardPerRun : I128) (designatedKeeper : Address) :
    AnchorM Address TokenState Unit :=
  publish (.taskProv taskId targetDripList executionIntervalLedgers microRewardPerRun
    designatedKeeper)

def emitTaskExecuted (taskId : TaskId) (keeper : Address) (ledger : U32) (reward : I128) :
    AnchorM Address TokenState Unit :=
  publish (.taskExec taskId keeper ledger reward)

def emitTaskExecutedBySecondary (taskId : TaskId) (secondaryKeeper designatedKeeper : Address)
    (ledger : U32) (slashAmount secondaryReward microReward : I128) :
    AnchorM Address TokenState Unit :=
  publish (.taskSec taskId secondaryKeeper designatedKeeper ledger slashAmount secondaryReward
    microReward)

def emitMissedExecution (taskId : TaskId) (ledgersElapsed : U32) :
    AnchorM Address TokenState Unit :=
  publish (.missed taskId ledgersElapsed)

end Events

end ChronosKeeper.Anchor
