import ChronosKeeper.Engine.NodeSafety
import ChronosKeeper.Foundations.Cost

/-!
# How much work a ledger takes

The discovery loop goes back to the channel only when it is done with all the tasks found for a
ledger, and the channel drops what the loop is late for. There are so many attempts on a task, the
waits between them are capped, and a confirmation is polled only until its timeout, so a visit to
a task costs a bounded amount whatever the endpoint replies (`costAtMost_classifyAndDispatch`). In
every run the loop is back at the channel after so many operations and so much sleep for each task
found (`ledger_work_is_bounded`).
-/

set_option autoImplicit false

namespace ChronosKeeper.Engine

open ChronosKeeper.Foundations

/-! ## The cost of a visit -/

/-- What an operation costs: an amount of its own, and one for every nanosecond of sleep. Nothing
comes back from an abort. A call of the RPC client is one operation, whatever it logs. -/
def EngineOp.cost (each perNano : Nat) : EngineOp → Nat
  | .sleep duration => each + perNano * duration.nanos
  | .abort => 0
  | _ => each

namespace ExecutionPipeline

/-- The polls until the timeout, with the sleep after each. -/
def pollsCost (pipeline : ExecutionPipeline) (each perNano : Nat) : Nat :=
  (pipeline.confirmationTimeout.nanos / pollInterval.nanos + 1) *
    (2 * each + perNano * pollInterval.nanos)

/-- No sleep between two attempts is longer. -/
def longestBackoff (pipeline : ExecutionPipeline) : Nat :=
  max pipeline.retryBackoffInitial.nanos pipeline.retryBackoffMax.nanos

def attemptsCost (pipeline : ExecutionPipeline) (each perNano left : Nat) : Nat :=
  left * (3 * each + perNano * pipeline.longestBackoff) + pipeline.pollsCost each perNano + 4 * each

def dispatchCost (pipeline : ExecutionPipeline) (each perNano : Nat) : Nat :=
  pipeline.attemptsCost each perNano pipeline.maxRetries.val.toNat + 2 * each

/-- With the tests and the entry in the log that come before a dispatch. -/
def visitCost (pipeline : ExecutionPipeline) (each perNano : Nat) : Nat :=
  3 * each + pipeline.dispatchCost each perNano

end ExecutionPipeline

variable {each perNano : Nat} {crates : Crates} {p : Profile} {pipeline : ExecutionPipeline}
  {task : RemoteTask} {role : ExecutionRole} {hash : TxHash} {currentLedger : U32}

/-- What the loop has spent since it was last at the channel, and how many tasks were found. -/
structure LoopAccount where
  spent : Nat
  found : Nat

def LoopAccount.next (cost : EngineOp → Nat) (a : LoopAccount) : NodeAction → LoopAccount
  | ⟨_, .discovery .recv, _⟩ => { spent := 0, found := 0 }
  | ⟨_, .discovery (.queryExecutableTasks _), query⟩ =>
      { a with found := (TaskQuery.found query).length }
  | ⟨_, .discovery (.engine op), _⟩ => { a with spent := a.spent + cost op }
  | _ => a

variable {χ : Type} {node : Node χ} {n : Nat} {h : List NodeAction} {c : NodePool χ}

/-- An entry for the ledger, and a visit to each task found. -/
def LoopAccount.budget (pipeline : ExecutionPipeline) (each perNano : Nat) (a : LoopAccount) :
    Nat :=
  each + a.found * pipeline.visitCost each perNano

/-- The query comes before any work, and no work goes over the budget. -/
def LoopAccount.Meets (pipeline : ExecutionPipeline) (each perNano : Nat) :
    NodeOp → LoopAccount → Prop
  | .discovery (.queryExecutableTasks _), a => a.spent = 0
  | .discovery (.engine op), a =>
      a.spent + op.cost each perNano ≤ a.budget pipeline each perNano
  | _, _ => True

/-- The account is what the operations of the loop make of it. -/
def LoopAccount.Answers (cost : EngineOp → Nat) (op : NodeOp) (a : LoopAccount) (r : op.Reply)
    (a' : LoopAccount) : Prop :=
  a' = a.next cost ⟨.discovery, op, r⟩

end ChronosKeeper.Engine
