import ChronosKeeper.Engine.Types

/-!
# The health server

The handler of `GET /health` (`health_server.rs`). It shares the counter of the poller, the
timestamp of the pipeline and the in-flight set with the other tasks of the engine, and reads each
by an operation of its own. A request is answered by what the handler returns. `HealthServer::run`
binds the port and serves, and panics if either fails; only the handler is modelled here.
-/

set_option autoImplicit false

namespace ChronosKeeper.Engine

open ChronosKeeper.Foundations

/-- The number of tasks in flight. -/
def InFlightSet.len (s : InFlightSet) : Nat := s.card

/-- The body of a response. -/
structure HealthResponse where
  currentLedger : U32
  /-- `null` if no execution has been confirmed. -/
  lastExecutionTimestamp : Option I64
  inFlightCount : Nat
  deriving DecidableEq

inductive HealthOp where
  | loadCurrentLedger
  | loadLastConfirmedTs
  | lenInFlight
  | respond (response : HealthResponse)

@[reducible] def HealthOp.Reply : HealthOp → Type
  | .loadCurrentLedger => U32
  | .loadLastConfirmedTs => I64
  | .lenInFlight => Nat
  | .respond _ => Unit

abbrev HealthM := Program HealthOp HealthOp.Reply

open Program (request)

/-- The timestamp as the response has it: zero is what the engine starts with. -/
def executionTimestamp (tsRaw : I64) : Option I64 := if tsRaw = 0 then none else some tsRaw

def healthHandler : HealthM HealthResponse := do
  let currentLedger ← request HealthOp.loadCurrentLedger
  let tsRaw ← request HealthOp.loadLastConfirmedTs
  let inFlightCount ← request HealthOp.lenInFlight
  return {
    currentLedger := currentLedger
    lastExecutionTimestamp := executionTimestamp tsRaw
    inFlightCount := inFlightCount }

/-- A request for `/health`. -/
def serveHealth : HealthM Unit := do
  let response ← healthHandler
  request (HealthOp.respond response)

end ChronosKeeper.Engine
