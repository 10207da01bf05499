import ChronosKeeper.Anchor.Types
import ChronosKeeper.Foundations.Program
import Mathlib.Data.Finset.Insert
import Mathlib.Data.Finset.Erase

/-!
# Data model of the Engine

The errors, the RPC results and the in-flight set of `the-engine`, and `EngineOp`, the operations
through which its code meets the rest of the world: the shared in-flight set, the RPC endpoint,
the clock, the shared timestamp and the log. An `async fn` of the engine is a `Program` over these
operations; every `.await` and every access to shared state is one operation.
-/

set_option autoImplicit false

namespace ChronosKeeper.Engine

open ChronosKeeper.Foundations

export Anchor (TaskId)

/-! ## Durations -/

/-- `Duration::MAX` in nanoseconds. -/
def maxNanos : Nat := (2 ^ 64 - 1) * 1000000000 + 999999999

/-- `std::time::Duration`. -/
structure Duration where
  nanos : Nat
  le_max : nanos ≤ maxNanos
  deriving DecidableEq

namespace Duration

def asSecs (d : Duration) : Nat := d.nanos / 1000000000

/-- `d * 2`, which aborts on overflow in every profile. -/
def double (d : Duration) : Option Duration :=
  if h : d.nanos * 2 ≤ maxNanos then some ⟨d.nanos * 2, h⟩ else none

protected def min (a b : Duration) : Duration := if a.nanos ≤ b.nanos then a else b

end Duration

/-! ## Errors -/

inductive IoErrorKind where
  | other
  | invalidData
  deriving DecidableEq

/-- Transient network and I/O conditions. -/
inductive TransientError where
  | io (kind : IoErrorKind) (message : String)
  | connectionTimeout (elapsed : Duration)
  | connectionReset
  | rpcTimeout
  deriving DecidableEq

/-- Errors that are permanent. -/
inductive NonTransientError where
  | contractRejection (reason : String)
  | confirmationTimeout (elapsed : Duration)
  | keypairDecode (message : String)
  | configInvalid (field reason : String)
  deriving DecidableEq

inductive EngineError where
  | transient (e : TransientError)
  | nonTransient (e : NonTransientError)
  deriving DecidableEq

/-! ## RPC data -/

abbrev TxHash := String

/-- Result of a confirmed transaction. -/
structure TxResult where
  hash : TxHash
  ledger : U32
  success : Bool
  errorDetail : Option String
  deriving DecidableEq

/-- An executable task as the RPC client returns it. -/
structure RemoteTask where
  taskIdHex : String
  targetDripList : String
  executionIntervalLedgers : U32
  nextAllowedExecution : U32
  microRewardPerRun : I128
  designatedKeeper : String
  deriving DecidableEq

/-- What comes back from a JSON-RPC request: a failure to send it, an HTTP status that is not a
success, a body that is not JSON, or a JSON object with its `error` member (as text), if any, and
the fields read of its `result` member. -/
inductive HttpReply (Result : Type) where
  | sendError (isTimeout isConnect : Bool) (message : String)
  | httpError (status : Nat)
  | invalidJson (message : String)
  | json (error : Option String) (result : Result)

/-- The fields read of a `sendTransaction` result. -/
structure SendTxResult where
  hash : Option String

/-- The fields read of a `getTransaction` result. -/
structure GetTxResult where
  status : Option String
  ledger : Option U64
  resultMetaXdr : Option String

/-- A value together with the time it took to arrive, in nanoseconds. -/
structure Timed (α : Type) where
  latency : Nat
  value : α

/-! ## The in-flight set -/

/-- The set behind the mutex of an `InFlightSet`, shared by all its clones. -/
abbrev InFlightSet := Finset TaskId

namespace InFlightSet

/-- The result of `insert` and the set after it. -/
def insert (s : InFlightSet) (taskId : TaskId) : Bool × InFlightSet :=
  (decide (taskId ∉ s), Insert.insert taskId s)

def remove (s : InFlightSet) (taskId : TaskId) : InFlightSet := s.erase taskId

def contains (s : InFlightSet) (taskId : TaskId) : Bool := decide (taskId ∈ s)

end InFlightSet

/-! ## Operations -/

/-- The role taken for an execution attempt. -/
inductive ExecutionRole where
  | designated
  | secondary
  | postGrace
  deriving DecidableEq

/-- The entries written to the log, with their fields. -/
inductive LogEntry where
  | executionConfirmed (taskId keeper : String) (ledger : U32) (txHash : TxHash)
      (role : ExecutionRole)
  | failedOnChain (taskId : String) (txHash : TxHash) (error : Option String)
  | confirmationTimeout (taskId : String) (txHash : TxHash)
  | confirmationError (taskId : String) (error : EngineError)
  | maxRetriesReached (taskId : String) (error : TransientError) (attempt : Nat)
  | retrying (taskId : String) (error : TransientError) (attempt backoffSecs : Nat)
  | droppingTask (taskId : String) (error : NonTransientError)
  | dispatchingAsSecondary (taskId : String) (ledgersElapsed : U32) (keeper : String)
  | missedExecution (taskId : String) (ledgersElapsed nextAllowed currentLedger : U32)
  | discoveredTasks (ledger : U32) (count : Nat)
  | taskQueryError (ledger : U32) (error : EngineError)
  | taskQueryTimedOut (ledger : U32)
  | channelLagged (skipped : U64)
  deriving DecidableEq

/-- The operations of the engine. -/
inductive EngineOp where
  | containsInFlight (taskId : TaskId)
  | insertInFlight (taskId : TaskId)
  | removeInFlight (taskId : TaskId)
  | postSendTransaction (transaction : String)
  | postGetTransaction (hash : TxHash)
  | sleep (duration : Duration)
  | unixTime
  | storeLastConfirmedTs (ts : I64)
  | log (entry : LogEntry)
  | abort
  deriving DecidableEq

/-- The replies. `unixTime` has none before the epoch, and nothing comes back from an abort. -/
@[reducible] def EngineOp.Reply : EngineOp → Type
  | .containsInFlight _ => Bool
  | .insertInFlight _ => Bool
  | .removeInFlight _ => Unit
  | .postSendTransaction _ => HttpReply SendTxResult
  | .postGetTransaction _ => Timed (HttpReply GetTxResult)
  | .sleep _ => Unit
  | .unixTime => Option U64
  | .storeLastConfirmedTs _ => Unit
  | .log _ => Unit
  | .abort => Empty

/-- Code of the engine. -/
abbrev EngineM := Program EngineOp EngineOp.Reply

section Operations

open Program (request)

variable {α : Type}

def containsInFlight (taskId : TaskId) : EngineM Bool := request (EngineOp.containsInFlight taskId)

def insertInFlight (taskId : TaskId) : EngineM Bool := request (EngineOp.insertInFlight taskId)

def removeInFlight (taskId : TaskId) : EngineM Unit := request (EngineOp.removeInFlight taskId)

def postSendTransaction (transaction : String) : EngineM (HttpReply SendTxResult) :=
  request (EngineOp.postSendTransaction transaction)

def postGetTransaction (hash : TxHash) : EngineM (Timed (HttpReply GetTxResult)) :=
  request (EngineOp.postGetTransaction hash)

def sleep (duration : Duration) : EngineM Unit := request (EngineOp.sleep duration)

def unixTime : EngineM (Option U64) := request EngineOp.unixTime

def storeLastConfirmedTs (ts : I64) : EngineM Unit := request (EngineOp.storeLastConfirmedTs ts)

def log (entry : LogEntry) : EngineM Unit := request (EngineOp.log entry)

/-- Ends the program: nothing comes after an abort. -/
def abort : EngineM α := .perform .abort Empty.elim

@[simp] theorem containsInFlight_bind (taskId : TaskId) (f : Bool → EngineM α) :
    (containsInFlight taskId >>= f) = .perform (.containsInFlight taskId) f := rfl

@[simp] theorem insertInFlight_bind (taskId : TaskId) (f : Bool → EngineM α) :
    (insertInFlight taskId >>= f) = .perform (.insertInFlight taskId) f := rfl

@[simp] theorem postGetTransaction_bind (hash : TxHash)
    (f : Timed (HttpReply GetTxResult) → EngineM α) :
    (postGetTransaction hash >>= f) = .perform (.postGetTransaction hash) f := rfl

@[simp] theorem log_bind (entry : LogEntry) (f : Unit → EngineM α) :
    (log entry >>= f) = .perform (.log entry) f := rfl

end Operations

/-- The functions of other crates that the engine calls. -/
structure Crates where
  /-- `hex::decode`. -/
  hexDecode : String → Option (List UInt8)
  /-- `hex::encode` of the Ed25519 signature of a message under a signing key. -/
  signatureHex : Anchor.BytesN 32 → String → String

end ChronosKeeper.Engine
