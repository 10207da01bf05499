import ChronosKeeper.Engine.Pipeline

/-!
# Grace monitoring and task discovery

`GraceMonitor` (`grace_monitor.rs`) and `TaskDiscovery` (`task_discovery.rs`). The classification
compares the current ledger with `next + 50`, an `u32` addition that aborts or wraps on overflow as
the build profile has it, and is computed only where the conditions before it let the evaluation
come that far. The query for executable tasks is an outcome like those of the other requests: that
of the source is not wired to the ledger yet, and returns no tasks.
-/

set_option autoImplicit false

namespace ChronosKeeper.Engine

open ChronosKeeper.Foundations

/-! ## Grace monitor -/

/-- The helper of `grace_monitor.rs`. -/
def parseTaskIdHex (crates : Crates) (hex : String) : TaskId := taskIdBytes crates hex

structure GraceMonitor where
  keeperAddress : String
  pipeline : ExecutionPipeline

namespace GraceMonitor

def logMissed (task : RemoteTask) (currentLedger : U32) : EngineM Unit :=
  let ledgersElapsed := currentLedger.saturatingSub task.nextAllowedExecution
  log (.missedExecution task.taskIdHex ledgersElapsed task.nextAllowedExecution currentLedger)

def evaluate (crates : Crates) (monitor : GraceMonitor) (task : RemoteTask)
    (currentLedger : U32) : EngineM Unit := do
  let ledgersElapsed := currentLedger.saturatingSub task.nextAllowedExecution
  if 50 < ledgersElapsed then
    logMissed task currentLedger
  else if monitor.keeperAddress = task.designatedKeeper then
    return ()
  else
    let inFlight ← containsInFlight (parseTaskIdHex crates task.taskIdHex)
    if inFlight then
      return ()
    else
      log (.dispatchingAsSecondary task.taskIdHex ledgersElapsed monitor.keeperAddress)
      monitor.pipeline.dispatch crates task .secondary

end GraceMonitor

/-! ## Task discovery -/

/-- The helper of `task_discovery.rs`. -/
def parseHex (crates : Crates) (hex : String) : TaskId := taskIdBytes crates hex

/-- The result of an arithmetic operation; an aborting operation ends the program. -/
def arith {α : Type} : Option α → EngineM α
  | some a => pure a
  | none => abort

/-- `current_ledger > next && current_ledger <= next + 50`. -/
def withinGrace (p : Profile) (next currentLedger : U32) : EngineM Bool :=
  if next < currentLedger then
    (fun graceEnd => decide (currentLedger ≤ graceEnd)) <$> arith (p.add next 50)
  else
    pure false

/-- What comes of the query for executable tasks, unless its timeout fires first. -/
inductive TaskQuery where
  | tasks (tasks : List RemoteTask)
  | error (e : EngineError)
  | elapsed

/-- What the channel delivers: an advance, here with what comes of the query that follows it, or
the notice that events were skipped. -/
inductive Received where
  | advance (seq : U32) (query : TaskQuery)
  | lagged (skipped : U64)

structure TaskDiscovery where
  keeperAddress : String
  pipeline : ExecutionPipeline
  graceMonitor : GraceMonitor

namespace TaskDiscovery

/-- The components as `main` wires them around a pipeline. -/
def wired (pipeline : ExecutionPipeline) : TaskDiscovery where
  keeperAddress := pipeline.keeperAddress
  pipeline := pipeline
  graceMonitor := { keeperAddress := pipeline.keeperAddress, pipeline := pipeline }

def classifyAndDispatch (crates : Crates) (p : Profile) (discovery : TaskDiscovery)
    (task : RemoteTask) (currentLedger : U32) : EngineM Unit := do
  let inFlight ← containsInFlight (parseHex crates task.taskIdHex)
  if inFlight then
    return ()
  else
    let next := task.nextAllowedExecution
    if currentLedger = next ∧ task.designatedKeeper = discovery.keeperAddress then
      discovery.pipeline.dispatch crates task .designated
    else
      let inGrace ← withinGrace p next currentLedger
      if inGrace then
        discovery.graceMonitor.evaluate crates task currentLedger
      else
        let graceEnd ← arith (p.add next 50)
        if graceEnd < currentLedger then
          GraceMonitor.logMissed task currentLedger
          discovery.pipeline.dispatch crates task .postGrace
        else
          return ()

/-- The loop over the discovered tasks. -/
def dispatchTasks (crates : Crates) (p : Profile) (discovery : TaskDiscovery)
    (currentLedger : U32) : List RemoteTask → EngineM Unit
  | [] => return ()
  | task :: rest => do
      discovery.classifyAndDispatch crates p task currentLedger
      discovery.dispatchTasks crates p currentLedger rest

def logDiscovered (currentLedger : U32) (tasks : List RemoteTask) : EngineM Unit :=
  if tasks = [] then return () else log (.discoveredTasks currentLedger tasks.length)

/-- What an advance leads to, given what comes of the query for executable tasks. -/
def onLedgerAdvance (crates : Crates) (p : Profile) (discovery : TaskDiscovery)
    (query : TaskQuery) (currentLedger : U32) : EngineM Unit :=
  match query with
  | .tasks tasks => do
      logDiscovered currentLedger tasks
      discovery.dispatchTasks crates p currentLedger tasks
  | .error e => log (.taskQueryError currentLedger e)
  | .elapsed => log (.taskQueryTimedOut currentLedger)

/-- The loop over what the channel delivers. -/
def run (crates : Crates) (p : Profile) (discovery : TaskDiscovery) :
    List Received → EngineM Unit
  | [] => return ()
  | .advance seq query :: rest => do
      discovery.onLedgerAdvance crates p query seq
      discovery.run crates p rest
  | .lagged skipped :: rest => do
      log (.channelLagged skipped)
      discovery.run crates p rest

end TaskDiscovery

/-! ## A sample engine -/

/-- The value of a hexadecimal digit. -/
def hexDigit (c : Char) : Option Nat :=
  if '0' ≤ c ∧ c ≤ '9' then some (c.toNat - 48)
  else if 'a' ≤ c ∧ c ≤ 'f' then some (c.toNat - 87)
  else if 'A' ≤ c ∧ c ≤ 'F' then some (c.toNat - 55)
  else none

def decodeHexDigits : List Char → Option (List UInt8)
  | [] => some []
  | [_] => none
  | hi :: lo :: rest =>
      match hexDigit hi, hexDigit lo, decodeHexDigits rest with
      | some h, some l, some bytes => some (UInt8.ofNat (16 * h + l) :: bytes)
      | _, _, _ => none

def sampleTaskIdHex : String := "af5570f5a1810b7af78caf4bc70a660f0df51e42baf91d4de5b2328de0e83dfc"

/-- A signing key of 32 bytes. -/
def sampleSigningKey : Anchor.BytesN 32 :=
  #v[0x9d, 0x61, 0xb1, 0x9d, 0xef, 0xfd, 0x5a, 0x60, 0xba, 0x84, 0x4a, 0xf4, 0x92, 0xec, 0x2c,
    0xc4, 0x44, 0x49, 0xc5, 0x69, 0x7b, 0x32, 0x69, 0x19, 0x70, 0x3b, 0xac, 0x03, 0x1c, 0xae, 0x7f,
    0x60]

/-- The signatures under the sample key of the messages that the samples sign. -/
def sampleSignatureHex (key : Anchor.BytesN 32) (msg : String) : String :=
  let signed (keeper role : String) : String :=
    "execute_drip_split:contract=C0:task=" ++ sampleTaskIdHex ++ ":keeper=" ++ keeper ++
      ":role=" ++ role
  if key ≠ sampleSigningKey then ""
  else if msg = signed "G3" "Designated" then
    "87de62169f767cdb70b69f4027eb14d4f312b4e23e638403189e1093d98e50c0" ++
      "cb4a61bbdfe8e37a240a44d5c40197e1d141cb289b4fd06220023aa27074f001"
  else if msg = signed "G4" "Secondary" then
    "65adcd8f5097520718de6ff8605be1e6c22dde742e269c99d52dbf74eb998342" ++
      "7fc940f4f80ae2313d60d26c627573d1ba739c47ca89b23e0e71efa6fbc0ac09"
  else if msg = signed "G4" "PostGrace" then
    "6cae759a2963aa7377a15f98c9949a5bf5656136927d3fa0bbaf8f4bf8523154" ++
      "fd129fdf62c3e84946a16ceed8fc6f2b67f873f1a5ea018c7490bc02c3ded806"
  else ""

def sampleCrates : Crates where
  hexDecode s := decodeHexDigits s.toList
  signatureHex := sampleSignatureHex

/-- The string form of a sample address. -/
def sampleEncode (address : Nat) : String := "G" ++ Nat.repr address

/-- The pipeline of a keeper, with the default settings. -/
def samplePipeline (keeper : Nat) : ExecutionPipeline where
  keeperAddress := sampleEncode keeper
  signingKeyBytes := sampleSigningKey
  anchorContractAddress := "C0"
  confirmationTimeout := ⟨60000000000, by decide⟩
  retryBackoffInitial := ⟨1000000000, by decide⟩
  retryBackoffMax := ⟨60000000000, by decide⟩
  maxRetries := 5

/-- A task of the designated keeper 3, provisioned at the ledger 0 and scheduled for `next`. -/
def sampleRemoteTask (next : U32) : RemoteTask where
  taskIdHex := sampleTaskIdHex
  targetDripList := sampleEncode 5
  executionIntervalLedgers := next
  nextAllowedExecution := next
  microRewardPerRun := 30
  designatedKeeper := sampleEncode 3

end ChronosKeeper.Engine
