import ChronosKeeper.Engine.Pipeline
import ChronosKeeper.Engine.Config

/-!
# The ledger poller

`LedgerPoller::run` (`ledger_poller.rs`) with `get_latest_ledger` of the RPC client. The loop has
no end; `run` performs a given number of its iterations and carries the two local variables. It
meets the rest of the world through `PollerOp`: the RPC endpoint, the shared counter of the last
known ledger, the broadcast channel, the clock and the log.
-/

set_option autoImplicit false

namespace ChronosKeeper.Engine

open ChronosKeeper.Foundations

/-! ## Operations -/

inductive LedgerEvent where
  | advance (seq : U32)
  deriving DecidableEq

/-- The fields read of a `getLatestLedger` result. -/
structure LatestLedgerResult where
  sequence : Option U64

/-- The entries written to the log, with their fields. -/
inductive PollerLogEntry where
  | treatingAsTransient (error : NonTransientError)
  | connectivityRestored (seq : U32)
  | ledgerAdvance (seq : U32)
  | transientError (consecutiveErrors : U32) (backoffSecs : Nat)
  | pollError (error : TransientError) (consecutiveErrors : U32) (backoffSecs : Nat)
  deriving DecidableEq

inductive PollerOp where
  | sleep (duration : Duration)
  | postGetLatestLedger
  | loadLastKnown
  | storeLastKnown (seq : U32)
  | broadcast (event : LedgerEvent)
  | log (entry : PollerLogEntry)
  | abort

/-- The replies. Whether anybody receives a broadcast is ignored. -/
@[reducible] def PollerOp.Reply : PollerOp → Type
  | .sleep _ => Unit
  | .postGetLatestLedger => HttpReply LatestLedgerResult
  | .loadLastKnown => U32
  | .storeLastKnown _ => Unit
  | .broadcast _ => Unit
  | .log _ => Unit
  | .abort => Empty

abbrev PollerM := Program PollerOp PollerOp.Reply

open Program (request)

/-- The result of an arithmetic operation; an aborting operation ends the program. -/
def PollerM.arith {α : Type} : Option α → PollerM α
  | some a => pure a
  | none => .perform .abort Empty.elim

/-! ## RPC client -/

/-- The sequence in a `getLatestLedger` result. -/
def RpcClient.sequence (result : LatestLedgerResult) : Except TransientError U32 :=
  match result.sequence with
  | some seq => .ok (MachineInt.wrap .u32 seq.val)
  | none => .error (.io .invalidData "missing 'sequence' field in getLatestLedger response")

def RpcClient.getLatestLedger : PollerM (Except TransientError U32) := do
  let reply ← request PollerOp.postGetLatestLedger
  match RpcClient.call reply with
  | .ok result => return RpcClient.sequence result
  | .error (.transient e) => return .error e
  | .error (.nonTransient e) =>
      let _ ← request (PollerOp.log (.treatingAsTransient e))
      return .error .rpcTimeout

/-! ## Poller -/

structure LedgerPoller where
  pollInterval : Duration
  retryBackoffInitial : Duration
  retryBackoffMax : Duration

namespace LedgerPoller

/-- The poller as `main` builds it from the configuration. -/
def ofConfig (cfg : EngineConfig) : LedgerPoller where
  pollInterval := cfg.pollInterval
  retryBackoffInitial := cfg.retryBackoffInitial
  retryBackoffMax := cfg.retryBackoffMax

/-- The local variables of the loop. -/
structure Locals where
  backoff : Duration
  consecutiveErrors : U32

/-- The reset of the local variables after a success. -/
def resetErrors (poller : LedgerPoller) (v : Locals) (seq : U32) : PollerM Locals :=
  if 0 < v.consecutiveErrors then do
    let _ ← request (PollerOp.log (.connectivityRestored seq))
    return { backoff := poller.retryBackoffInitial, consecutiveErrors := 0 }
  else
    pure v

/-- The comparison with the last known ledger. -/
def advanceTo (seq : U32) : PollerM Unit := do
  let last ← request PollerOp.loadLastKnown
  if last < seq then
    let _ ← request (PollerOp.storeLastKnown seq)
    let _ ← request (PollerOp.broadcast (.advance seq))
    request (PollerOp.log (.ledgerAdvance seq))
  else
    return ()

/-- The arm for a sequence. -/
def onSequence (poller : LedgerPoller) (v : Locals) (seq : U32) : PollerM Locals := do
  let v ← poller.resetErrors v seq
  advanceTo seq
  return v

/-- The entry that the arm for an error logs. A timeout or a reset has an arm of its own. -/
def errorEntry : TransientError → U32 → Nat → PollerLogEntry
  | .rpcTimeout => .transientError
  | .connectionReset => .transientError
  | e => .pollError e

/-- The two arms for an error, which differ in the entry. -/
def onError (p : Profile) (poller : LedgerPoller) (v : Locals) (e : TransientError) :
    PollerM Locals := do
  let consecutiveErrors ← PollerM.arith (p.add v.consecutiveErrors 1)
  let _ ← request (PollerOp.log (errorEntry e consecutiveErrors v.backoff.asSecs))
  let _ ← request (PollerOp.sleep v.backoff)
  let doubled ← PollerM.arith v.backoff.double
  return { backoff := doubled.min poller.retryBackoffMax, consecutiveErrors := consecutiveErrors }

/-- One iteration of the loop. -/
def poll (p : Profile) (poller : LedgerPoller) (v : Locals) : PollerM Locals := do
  let _ ← request (PollerOp.sleep poller.pollInterval)
  match ← RpcClient.getLatestLedger with
  | .ok seq => poller.onSequence v seq
  | .error e => poller.onError p v e

/-- So many iterations of the loop. -/
def iterations (p : Profile) (poller : LedgerPoller) : Nat → Locals → PollerM Locals
  | 0, v => return v
  | n + 1, v => do
      let v ← poller.poll p v
      poller.iterations p n v

/-- The loop, for so many iterations. -/
def run (p : Profile) (poller : LedgerPoller) (n : Nat) : PollerM Locals :=
  poller.iterations p n { backoff := poller.retryBackoffInitial, consecutiveErrors := 0 }

end LedgerPoller

end ChronosKeeper.Engine
