import ChronosKeeper.Engine.Types

/-!
# The execution pipeline

The RPC client (`rpc_client.rs`) as far as the pipeline uses it, and the pipeline itself
(`execution_pipeline.rs`): sign, submit, confirm, retry.

`wait_for_confirmation` runs its loop inside a `tokio::time::timeout`. `pollUntilFinal` carries
the time that is left of it: a reply or the end of a sleep that would come later than that is cut
off. `execute_with_retry` is a loop over `0..=max_retries`; `attemptsFrom` carries the number of
attempts left after the current one.
-/

set_option autoImplicit false

namespace ChronosKeeper.Engine

open ChronosKeeper.Foundations

/-! ## RPC client -/

namespace RpcClient

/-- What `call` makes of a reply. -/
def call {Result : Type} : HttpReply Result → Except EngineError Result
  | .sendError isTimeout isConnect message =>
      if isTimeout then .error (.transient .rpcTimeout)
      else if isConnect then .error (.transient .connectionReset)
      else .error (.transient (.io .other message))
  | .httpError _ => .error (.transient .rpcTimeout)
  | .invalidJson message => .error (.transient (.io .invalidData message))
  | .json (some reason) _ => .error (.nonTransient (.contractRejection reason))
  | .json none result => .ok result

/-- The hash in a `sendTransaction` result. -/
def txHash (result : SendTxResult) : Except EngineError TxHash :=
  match result.hash with
  | some hash => .ok hash
  | none => .error (.nonTransient (.contractRejection
      "missing 'hash' in sendTransaction response"))

def sendTransaction (signedXdr : String) : EngineM (Except EngineError TxHash) := do
  let reply ← postSendTransaction signedXdr
  return (call reply).bind txHash

/-- The fields of a `getTransaction` result as the caller sees them. -/
def txResult (hash : TxHash) (result : GetTxResult) : TxResult :=
  let status := result.status.getD "UNKNOWN"
  let success := status == "SUCCESS"
  { hash := hash
    ledger := MachineInt.wrap .u32 (match result.ledger with | some n => n.val | none => 0)
    success := success
    errorDetail := if !success then some (result.resultMetaXdr.getD "") else none }

theorem txResult_success (hash : TxHash) (result : GetTxResult) :
    (txResult hash result).success = (result.status.getD "UNKNOWN" == "SUCCESS") := rfl

theorem txResult_errorDetail (hash : TxHash) (result : GetTxResult) :
    (txResult hash result).errorDetail =
      if !(txResult hash result).success then some (result.resultMetaXdr.getD "") else none := rfl

def getTransaction (hash : TxHash) : EngineM (Timed (Except EngineError TxResult)) := do
  let reply ← postGetTransaction hash
  return ⟨reply.latency, (call reply.value).map (txResult hash)⟩

end RpcClient

/-! ## Task identifiers -/

/-- The first 32 bytes of a hex string, padded with zeros; a string that is not hex counts as
empty. The three helpers of the source that do this are the same. -/
def taskIdBytes (crates : Crates) (hex : String) : TaskId :=
  let bytes := (crates.hexDecode hex).getD []
  Vector.ofFn fun i => bytes.getD i.val 0

/-- The helper of `execution_pipeline.rs`. -/
def parseTaskId (crates : Crates) (hexStr : String) : TaskId := taskIdBytes crates hexStr

/-! ## Pipeline -/

structure ExecutionPipeline where
  keeperAddress : String
  signingKeyBytes : Anchor.BytesN 32
  anchorContractAddress : String
  confirmationTimeout : Duration
  retryBackoffInitial : Duration
  retryBackoffMax : Duration
  maxRetries : U32

/-- `{:?}` of a role. -/
def ExecutionRole.debug : ExecutionRole → String
  | .designated => "Designated"
  | .secondary => "Secondary"
  | .postGrace => "PostGrace"

namespace ExecutionPipeline

/-- The part that the signed message and the envelope have in common. -/
def invocation (pipeline : ExecutionPipeline) (task : RemoteTask) (role : ExecutionRole) :
    String :=
  "contract=" ++ pipeline.anchorContractAddress ++ ":task=" ++ task.taskIdHex ++ ":keeper=" ++
    pipeline.keeperAddress ++ ":role=" ++ role.debug

def buildSignedTransaction (crates : Crates) (pipeline : ExecutionPipeline) (task : RemoteTask)
    (role : ExecutionRole) : String :=
  let msg := "execute_drip_split:" ++ pipeline.invocation task role
  let sigHex := crates.signatureHex pipeline.signingKeyBytes msg
  "SIGNED:" ++ pipeline.invocation task role ++ ":sig=" ++ sigHex

/-- The result of a timeout that fired. -/
def timedOut (pipeline : ExecutionPipeline) : Except EngineError TxResult :=
  .error (.nonTransient (.confirmationTimeout pipeline.confirmationTimeout))

/-- The polling loop with `remaining` nanoseconds left until the timeout fires. -/
def pollUntilFinal (pipeline : ExecutionPipeline) (hash : TxHash) (pollInterval : Duration)
    (hpos : 0 < pollInterval.nanos) (remaining : Nat) : EngineM (Except EngineError TxResult) := do
  let reply ← RpcClient.getTransaction hash
  if remaining < reply.latency then
    return pipeline.timedOut
  else
    match reply.value with
    | .ok tx =>
        if tx.success || tx.errorDetail.isSome then
          return .ok tx
        else
          sleep pollInterval
          if reply.latency + pollInterval.nanos ≤ remaining then
            pipeline.pollUntilFinal hash pollInterval hpos
              (remaining - (reply.latency + pollInterval.nanos))
          else
            return pipeline.timedOut
    | .error e => return .error e
termination_by remaining

/-- `Duration::from_secs(2)`. -/
def pollInterval : Duration := ⟨2000000000, by decide⟩

theorem pollInterval_pos : 0 < pollInterval.nanos := by decide

def waitForConfirmation (pipeline : ExecutionPipeline) (hash : TxHash) :
    EngineM (Except EngineError TxResult) :=
  pipeline.pollUntilFinal hash pollInterval pollInterval_pos pipeline.confirmationTimeout.nanos

/-- What follows an accepted submission. -/
def awaitOutcome (pipeline : ExecutionPipeline) (task : RemoteTask) (role : ExecutionRole)
    (hash : TxHash) : EngineM Unit := do
  match ← pipeline.waitForConfirmation hash with
  | .ok result =>
      if result.success then
        let elapsed ← unixTime
        let nowTs : I64 := match elapsed with | some secs => MachineInt.wrap .i64 secs.val | none => 0
        storeLastConfirmedTs nowTs
        log (.executionConfirmed task.taskIdHex pipeline.keeperAddress result.ledger hash role)
      else
        log (.failedOnChain task.taskIdHex hash result.errorDetail)
  | .error (.nonTransient (.confirmationTimeout _)) =>
      log (.confirmationTimeout task.taskIdHex hash)
  | .error e => log (.confirmationError task.taskIdHex e)

/-- The attempt number `attempt` and the `left` attempts that may follow it. -/
def attemptsFrom (crates : Crates) (pipeline : ExecutionPipeline) (task : RemoteTask)
    (role : ExecutionRole) (attempt : Nat) (backoff : Duration) (left : Nat) : EngineM Unit := do
  let signedEnvelope := pipeline.buildSignedTransaction crates task role
  match ← RpcClient.sendTransaction signedEnvelope with
  | .ok hash => pipeline.awaitOutcome task role hash
  | .error (.transient e) =>
      match left with
      | 0 => log (.maxRetriesReached task.taskIdHex e attempt)
      | left + 1 =>
          log (.retrying task.taskIdHex e attempt backoff.asSecs)
          sleep backoff
          match backoff.double with
          | none => abort
          | some doubled =>
              pipeline.attemptsFrom crates task role (attempt + 1)
                (doubled.min pipeline.retryBackoffMax) left
  | .error (.nonTransient e) => log (.droppingTask task.taskIdHex e)

def executeWithRetry (crates : Crates) (pipeline : ExecutionPipeline) (task : RemoteTask)
    (role : ExecutionRole) : EngineM Unit :=
  pipeline.attemptsFrom crates task role 0 pipeline.retryBackoffInitial
    pipeline.maxRetries.val.toNat

def dispatch (crates : Crates) (pipeline : ExecutionPipeline) (task : RemoteTask)
    (role : ExecutionRole) : EngineM Unit := do
  let taskId := parseTaskId crates task.taskIdHex
  let inserted ← insertInFlight taskId
  if !inserted then
    return ()
  else
    pipeline.executeWithRetry crates task role
    removeInFlight taskId

end ExecutionPipeline

end ChronosKeeper.Engine
