import ChronosKeeper.Engine.Discovery
import ChronosKeeper.Engine.Poller
import ChronosKeeper.Engine.Health
import ChronosKeeper.Engine.Concurrency
import ChronosKeeper.Engine.Retry
import ChronosKeeper.Foundations.Broadcast
import ChronosKeeper.Foundations.Guarantees

/-!
# The running engine

`main.rs` wires the components together and spawns three tasks: the poller, the discovery loop and
the health server. They share the counter of the last known ledger, the timestamp of the last
confirmed execution, the in-flight set and the broadcast channel from the poller to the discovery
loop, and are scheduled in any order. A node is a pool of these tasks, with one party for each
request to the health server; that the server is bound to its port and serves is taken for
granted. An operation of a task is answered by the shared state; the RPC endpoint and the clock may
answer anything.

Both loops have no end; each task performs a given number of iterations. `main` subscribes after
it has spawned the poller and before it spawns the discovery loop, so the subscription counts as
the first operation of that loop. `main` keeps a sender of the channel, which is never closed. A
task that has aborted does nothing more, and the others go on.
-/

set_option autoImplicit false

namespace ChronosKeeper.Engine

open ChronosKeeper.Foundations

open Program (request)

/-! ## The discovery loop -/

inductive DiscoveryOp where
  | subscribe
  | recv
  | queryExecutableTasks (currentLedger : U32)
  | engine (op : EngineOp)
  | logChannelClosed

@[reducible] def DiscoveryOp.Reply : DiscoveryOp → Type
  | .subscribe => Unit
  | .recv => Receipt LedgerEvent
  | .queryExecutableTasks _ => TaskQuery
  | .engine op => op.Reply
  | .logChannelClosed => Unit

abbrev DiscoveryM := Program DiscoveryOp DiscoveryOp.Reply

/-- Code of the engine as a part of the discovery task. -/
def EngineM.inDiscovery {α : Type} (x : EngineM α) : DiscoveryM α :=
  x.embed DiscoveryOp.engine fun _ r => r

/-- So many iterations of the loop. -/
def TaskDiscovery.iterations (crates : Crates) (p : Profile) (discovery : TaskDiscovery) :
    Nat → DiscoveryM Unit
  | 0 => return ()
  | n + 1 => do
      match ← request DiscoveryOp.recv with
      | .value (.advance seq) =>
          let query ← request (DiscoveryOp.queryExecutableTasks seq)
          (discovery.onLedgerAdvance crates p query seq).inDiscovery
          discovery.iterations crates p n
      | .lagged skipped =>
          (log (.channelLagged (MachineInt.wrap .u64 skipped))).inDiscovery
          discovery.iterations crates p n
      | .closed => request DiscoveryOp.logChannelClosed

/-- The discovery task: the subscription and the loop. -/
def TaskDiscovery.task (crates : Crates) (p : Profile) (discovery : TaskDiscovery) (n : Nat) :
    DiscoveryM Unit := do
  request DiscoveryOp.subscribe
  discovery.iterations crates p n

/-! ## Queries -/

/-- `query_executable_tasks`: without the decoding of ledger entries, the list is empty. -/
def RpcClient.queryExecutableTasks (_anchorAddress : String) (_currentLedger : U32) :
    Except EngineError (List RemoteTask) :=
  .ok []

/-- A query that returns before its timeout. -/
def TaskQuery.ofResult : Except EngineError (List RemoteTask) → TaskQuery
  | .ok found => .tasks found
  | .error e => .error e

/-! ## The tasks -/

inductive NodeTask where
  | poller
  | discovery
  | health (request : Nat)
  deriving DecidableEq

inductive NodeOp where
  | poller (op : PollerOp)
  | discovery (op : DiscoveryOp)
  | health (op : HealthOp)

@[reducible] def NodeOp.Reply : NodeOp → Type
  | .poller op => op.Reply
  | .discovery op => op.Reply
  | .health op => op.Reply

abbrev NodeM := Program NodeOp NodeOp.Reply

/-- The components of the engine, and what queries may return at a ledger. `χ` is the state of the
channel. -/
structure Node (χ : Type) where
  crates : Crates
  profile : Profile
  pipeline : ExecutionPipeline
  poller : LedgerPoller
  channel : BroadcastChannel LedgerEvent χ
  Queries : U32 → TaskQuery → Prop

/-- The state that the tasks share. -/
structure NodeState (χ : Type) where
  lastKnown : U32
  lastConfirmedTs : I64
  inFlight : InFlightSet
  channel : χ

/-- The components that `main` builds from the configuration and the decoded keypair. -/
def Node.ofConfig {χ : Type} (crates : Crates) (p : Profile) (cfg : EngineConfig)
    (keeperAddress : String) (signingKeyBytes : Anchor.BytesN 32)
    (channel : BroadcastChannel LedgerEvent χ) : Node χ where
  crates := crates
  profile := p
  pipeline := ExecutionPipeline.ofConfig cfg keeperAddress signingKeyBytes
  poller := LedgerPoller.ofConfig cfg
  channel := channel
  Queries seq query := query =
    TaskQuery.ofResult (RpcClient.queryExecutableTasks cfg.anchorContractAddress seq)

variable {χ : Type}

/-- The program of a task, with so many iterations of its loop. -/
def Node.program (node : Node χ) (n : Nat) : NodeTask → NodeM Unit
  | .poller =>
      ((node.poller.run node.profile n).embed NodeOp.poller fun _ r => r) >>= fun _ => pure ()
  | .discovery =>
      ((TaskDiscovery.wired node.pipeline).task node.crates node.profile n).embed
        NodeOp.discovery fun _ r => r
  | .health _ => serveHealth.embed NodeOp.health fun _ r => r

abbrev NodePool (χ : Type) := Pool NodeTask NodeOp NodeOp.Reply (NodeState χ)

abbrev NodeAction := Pool.Action NodeTask NodeOp NodeOp.Reply

/-- The node when its tasks are spawned. -/
def Node.start (node : Node χ) (n : Nat) : NodePool χ where
  shared := { lastKnown := 0, lastConfirmedTs := 0, inFlight := ∅, channel := node.channel.opened }
  program := node.program n

/-! ## The answers of the shared state -/

/-- The shared timestamp after an operation. -/
def EngineOp.storedTs : EngineOp → I64 → I64
  | .storeLastConfirmedTs ts, _ => ts
  | _, ts => ts

def Node.PollerAnswers (node : Node χ) :
    (op : PollerOp) → NodeState χ → op.Reply → NodeState χ → Prop
  | .loadLastKnown, s, last, s' => last = s.lastKnown ∧ s' = s
  | .storeLastKnown seq, s, _, s' => s' = { s with lastKnown := seq }
  | .broadcast event, s, _, s' => s' = { s with channel := node.channel.send event s.channel }
  | _, s, _, s' => s' = s

def Node.DiscoveryAnswers (node : Node χ) :
    (op : DiscoveryOp) → NodeState χ → op.Reply → NodeState χ → Prop
  | .subscribe, s, _, s' => s' = { s with channel := node.channel.subscribe s.channel }
  | .recv, s, receipt, s' =>
      ∃ channel, node.channel.receive s.channel = some (receipt, channel) ∧
        s' = { s with channel := channel }
  | .queryExecutableTasks seq, s, query, s' => node.Queries seq query ∧ s' = s
  | .engine op, s, r, s' =>
      InFlightSet.Answers op s.inFlight r s'.inFlight ∧
        s' = { s with
          inFlight := s'.inFlight
          lastConfirmedTs := op.storedTs s.lastConfirmedTs }
  | .logChannelClosed, s, _, s' => s' = s

def Node.HealthAnswers : (op : HealthOp) → NodeState χ → op.Reply → NodeState χ → Prop
  | .loadCurrentLedger, s, ledger, s' => ledger = s.lastKnown ∧ s' = s
  | .loadLastConfirmedTs, s, ts, s' => ts = s.lastConfirmedTs ∧ s' = s
  | .lenInFlight, s, count, s' => count = s.inFlight.len ∧ s' = s
  | .respond _, s, _, s' => s' = s

def Node.Answers (node : Node χ) : (op : NodeOp) → NodeState χ → op.Reply → NodeState χ → Prop
  | .poller op => node.PollerAnswers op
  | .discovery op => node.DiscoveryAnswers op
  | .health op => Node.HealthAnswers op

/-- The runs of the node, under every schedule, each with its history. -/
abbrev Node.Run (node : Node χ) (n : Nat) : List NodeAction → NodePool χ → Prop :=
  Pool.Run node.Answers (node.start n)

/-! ## The shared values after an operation -/

def NodeOp.storedLedger : NodeOp → U32 → U32
  | .poller (.storeLastKnown seq), _ => seq
  | _, ledger => ledger

def NodeOp.storedTs : NodeOp → I64 → I64
  | .discovery (.engine op), ts => op.storedTs ts
  | _, ts => ts

def NodeOp.inFlightAfter : NodeOp → InFlightSet → InFlightSet
  | .discovery (.engine (.insertInFlight taskId)), s => (s.insert taskId).2
  | .discovery (.engine (.removeInFlight taskId)), s => s.remove taskId
  | _, s => s

/-- The values after an operation, by the tasks and their operations. -/
theorem Node.shared_after {node : Node χ} {op : NodeOp} {r : op.Reply} {s s' : NodeState χ}
    (hanswer : node.Answers op s r s') :
    s'.lastKnown = op.storedLedger s.lastKnown ∧
      s'.lastConfirmedTs = op.storedTs s.lastConfirmedTs ∧
      s'.inFlight = op.inFlightAfter s.inFlight := by
  cases op with
  | poller op =>
      cases op with
      | loadLastKnown =>
          obtain ⟨-, rfl⟩ := hanswer
          exact ⟨rfl, rfl, rfl⟩
      | _ =>
          have hs' : s' = _ := hanswer
          rw [hs']
          exact ⟨rfl, rfl, rfl⟩
  | discovery op =>
      cases op with
      | recv =>
          obtain ⟨channel, -, rfl⟩ := hanswer
          exact ⟨rfl, rfl, rfl⟩
      | queryExecutableTasks seq =>
          obtain ⟨-, rfl⟩ := hanswer
          exact ⟨rfl, rfl, rfl⟩
      | engine op =>
          obtain ⟨hset, hs'⟩ := hanswer
          rw [hs']
          refine ⟨rfl, rfl, ?_⟩
          cases op with
          | containsInFlight taskId => exact hset.2
          | insertInFlight taskId => exact congrArg Prod.snd hset
          | _ => exact hset
      | _ =>
          have hs' : s' = _ := hanswer
          rw [hs']
          exact ⟨rfl, rfl, rfl⟩
  | health op =>
      cases op with
      | respond response =>
          have hs' : s' = s := hanswer
          rw [hs']
          exact ⟨rfl, rfl, rfl⟩
      | _ =>
          obtain ⟨-, rfl⟩ := hanswer
          exact ⟨rfl, rfl, rfl⟩

/-! ## Which task performs which operations -/

/-- The operations of a task are its own. -/
def NodeTask.Owns : NodeTask → NodeOp → Prop
  | .poller, .poller _ => True
  | .discovery, .discovery _ => True
  | .health _, .health _ => True
  | _, _ => False

theorem Node.owns (node : Node χ) (n : Nat) (i : NodeTask) :
    ((node.start n).program i).All i.Owns := by
  cases i with
  | poller =>
      have hpoller : ((node.poller.run node.profile n).embed NodeOp.poller fun _ r => r :
          NodeM LedgerPoller.Locals).All NodeTask.poller.Owns :=
        (Program.all_true _).embed fun _ _ => trivial
      exact hpoller.bind fun _ => trivial
  | discovery => exact (Program.all_true _).embed fun _ _ => trivial
  | health request => exact (Program.all_true _).embed fun _ _ => trivial

/-! ## A sample node -/

/-- The channel that `main` opens between the poller and the discovery loop. -/
def ledgerChannel : BroadcastChannel LedgerEvent (BroadcastBuffer LedgerEvent) :=
  BroadcastBuffer.channel 64 (Nat.succ_pos 63)

/-- The node of the designated keeper, with the default settings; queries find the sample task. -/
def sampleNode : Node (BroadcastBuffer LedgerEvent) where
  crates := sampleCrates
  profile := .release
  pipeline := samplePipeline 3
  poller := {
    pollInterval := Duration.fromSecs DEFAULT_POLL_INTERVAL_SECS
    retryBackoffInitial := Duration.fromSecs DEFAULT_RETRY_BACKOFF_INITIAL_SECS
    retryBackoffMax := Duration.fromSecs DEFAULT_RETRY_BACKOFF_MAX_SECS }
  channel := ledgerChannel
  Queries _ query := query = .tasks [sampleRemoteTask 100]

/-- The first ledger reported goes through the channel to the loop. -/
def sampleHistory : List NodeAction :=
  [⟨.discovery, .discovery .subscribe, ()⟩,
    ⟨.poller, .poller (.sleep sampleNode.poller.pollInterval), ()⟩,
    ⟨.poller, .poller .postGetLatestLedger, .json none ⟨some 100⟩⟩,
    ⟨.poller, .poller .loadLastKnown, 0⟩,
    ⟨.poller, .poller (.storeLastKnown 100), ()⟩,
    ⟨.poller, .poller (.broadcast (.advance 100)), ()⟩,
    ⟨.poller, .poller (.log (.ledgerAdvance 100)), ()⟩,
    ⟨.discovery, .discovery .recv, .value (.advance 100)⟩]

/-- Then the loop handles the ledger, the poller goes on, and no request has been made yet. -/
structure AfterSample (c : NodePool (BroadcastBuffer LedgerEvent)) : Prop where
  run : sampleNode.Run 2 sampleHistory c
  shared : c.shared = ⟨100, 0, ∅, ⟨true, [], 0⟩⟩
  discovery : c.program .discovery = (do
    let query ← request (DiscoveryOp.queryExecutableTasks 100)
    ((TaskDiscovery.wired (samplePipeline 3)).onLedgerAdvance sampleCrates .release query
      100).inDiscovery
    (TaskDiscovery.wired (samplePipeline 3)).iterations sampleCrates .release 1 :
      DiscoveryM Unit).embed NodeOp.discovery fun _ r => r
  poller : c.program .poller = ((sampleNode.poller.iterations .release 1
    { backoff := sampleNode.poller.retryBackoffInitial, consecutiveErrors := 0 }).embed
      NodeOp.poller fun _ r => r) >>= fun _ => pure ()
  health : ∀ k, c.program (.health k) = serveHealth.embed NodeOp.health fun _ r => r

theorem run_sample : ∃ c, AfterSample c := by
  have h₀ : sampleNode.Run 2 [] _ := .start
  have h₁ := h₀.perform .discovery (.discovery .subscribe) () rfl rfl
  have h₂ := h₁.perform .poller (.poller (.sleep _)) () rfl rfl
  have h₃ := h₂.perform .poller (.poller .postGetLatestLedger) (.json none ⟨some 100⟩) rfl rfl
  have h₄ := h₃.perform .poller (.poller .loadLastKnown) 0 rfl ⟨rfl, rfl⟩
  have h₅ := h₄.perform .poller (.poller (.storeLastKnown 100)) () rfl rfl
  have h₆ := h₅.perform .poller (.poller (.broadcast (.advance 100))) () rfl rfl
  have h₇ := h₆.perform .poller (.poller (.log (.ledgerAdvance 100))) () rfl rfl
  have h₈ := h₇.perform .discovery (.discovery .recv) (.value (.advance 100)) rfl ⟨_, rfl, rfl⟩
  exact ⟨_, h₈, rfl, rfl, rfl, fun k => rfl⟩

end ChronosKeeper.Engine
