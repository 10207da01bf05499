import ChronosKeeper.Engine.Node
import ChronosKeeper.Engine.Solo
import ChronosKeeper.Engine.Polling

/-!
# A configured engine keeps going

The code of the poller and of the discovery loop panics where a `Duration` is doubled out of its
range and, in a debug build, where an addition overflows; a task that panics is gone, and nothing
restarts it. The validation of
the configuration rules out the first, and the second needs a task scheduled for one of the last
50 ledgers there are, or 2³² failures of the endpoint in a row.

So in every run of a node with an accepted configuration the poller, the discovery loop and the
handling of each health request go on as long as they have something to do, and the discovery loop
waits only where the channel has nothing for it (`configured_node_progresses`). The health server
itself also panics if its port cannot be bound or serving fails; it takes no part in a run.
-/

set_option autoImplicit false

namespace ChronosKeeper.Engine

open ChronosKeeper.Foundations

/-! ## The code of a dispatch -/

section Dispatch

variable {crates : Crates} {p : Profile} {pipeline : ExecutionPipeline} {task : RemoteTask}
  {role : ExecutionRole} {currentLedger : U32}
  (hrange : BackoffRange pipeline.retryBackoffInitial pipeline.retryBackoffMax)
include hrange

theorem all_dispatch_ne_abort : (pipeline.dispatch crates task role).All (· ≠ .abort) := by
  have hinsert : (insertInFlight (parseTaskId crates task.taskIdHex)).All (· ≠ .abort) :=
    Program.All.request (by simp)
  unfold ExecutionPipeline.dispatch
  apply hinsert.bind
  intro inserted
  split
  · trivial
  · unfold ExecutionPipeline.executeWithRetry
    apply (all_attemptsFrom_ne_abort hrange (isBackoff_zero hrange)).bind
    intro _
    exact ⟨by simp, fun _ => trivial⟩

omit hrange in
theorem all_containsInFlight_ne_abort (taskId : TaskId) :
    (containsInFlight taskId).All (· ≠ .abort) := Program.All.request (by simp)

theorem all_evaluate_ne_abort :
    ((TaskDiscovery.wired pipeline).graceMonitor.evaluate crates task currentLedger).All
      (· ≠ .abort) := by
  unfold GraceMonitor.evaluate
  dsimp only
  split
  · exact ⟨by simp, fun _ => trivial⟩
  split
  · trivial
  · apply (all_containsInFlight_ne_abort _).bind
    intro found
    split
    · trivial
    · exact ⟨by simp, fun _ => all_dispatch_ne_abort hrange⟩

/-- Where the end of the grace period is a ledger, a visit does not abort. -/
theorem all_classifyAndDispatch_ne_abort (hfits : (p.add task.nextAllowedExecution 50).isSome) :
    ((TaskDiscovery.wired pipeline).classifyAndDispatch crates p task currentLedger).All
      (· ≠ .abort) := by
  obtain ⟨graceEnd, hadd⟩ := Option.isSome_iff_exists.1 hfits
  unfold TaskDiscovery.classifyAndDispatch
  apply (all_containsInFlight_ne_abort _).bind
  intro found
  split
  · trivial
  dsimp only
  split
  · exact all_dispatch_ne_abort hrange
  · rw [withinGrace_of_some hadd, Program.done_bind]
    split
    · exact all_evaluate_ne_abort hrange
    · rw [hadd]
      show (if graceEnd < currentLedger then _ else _ : EngineM Unit).All _
      split
      · exact ⟨by simp, fun _ => all_dispatch_ne_abort hrange⟩
      · trivial

/-- By induction on the tasks. -/
theorem all_dispatchTasks_ne_abort {tasks : List RemoteTask}
    (hfits : ∀ task ∈ tasks, (p.add task.nextAllowedExecution 50).isSome) :
    ((TaskDiscovery.wired pipeline).dispatchTasks crates p currentLedger tasks).All
      (· ≠ .abort) := by
  induction tasks with
  | nil => trivial
  | cons task rest ih =>
      unfold TaskDiscovery.dispatchTasks
      apply (all_classifyAndDispatch_ne_abort hrange (hfits task List.mem_cons_self)).bind
      intro _
      exact ih fun task htask => hfits task (List.mem_cons_of_mem _ htask)

theorem all_onLedgerAdvance_ne_abort {query : TaskQuery}
    (hfits : ∀ task ∈ query.found, (p.add task.nextAllowedExecution 50).isSome) :
    ((TaskDiscovery.wired pipeline).onLedgerAdvance crates p query currentLedger).All
      (· ≠ .abort) := by
  cases query with
  | tasks tasks =>
      show (TaskDiscovery.logDiscovered currentLedger tasks >>= fun _ =>
        (TaskDiscovery.wired pipeline).dispatchTasks crates p currentLedger tasks).All _
      have hlog : (TaskDiscovery.logDiscovered currentLedger tasks).All (· ≠ .abort) := by
        unfold TaskDiscovery.logDiscovered
        split
        · trivial
        · exact ⟨by simp, fun _ => trivial⟩
      exact hlog.bind fun _ => all_dispatchTasks_ne_abort hrange hfits
  | error e => exact ⟨by simp, fun _ => trivial⟩
  | elapsed => exact ⟨by simp, fun _ => trivial⟩

end Dispatch

/-! ## The code of the poller -/

section Poller

variable {p : Profile} {poller : LedgerPoller} {v : LedgerPoller.Locals} {n : Nat}

/-- Any reply may come. -/
abbrev PollerOp.AnyReply (op : PollerOp) (_ : Unit) (_ : op.Reply) (_ : Unit) : Prop := True

/-- The back-off is one of the policy, and that many failures can still be counted. -/
structure LedgerPoller.Steady (p : Profile) (poller : LedgerPoller) (n : Nat)
    (v : LedgerPoller.Locals) : Prop where
  backoff : ∃ k, IsBackoff poller.retryBackoffInitial poller.retryBackoffMax k v.backoff
  counter : p = .release ∨ v.consecutiveErrors.val + n ≤ 4294967295

/-- The next failure can be counted. -/
theorem LedgerPoller.Steady.count (h : poller.Steady p (n + 1) v) :
    ∃ errors, p.add v.consecutiveErrors 1 = some errors ∧
      (p = .release ∨ errors.val + n ≤ 4294967295) := by
  have hone : (1 : U32).val = 1 := rfl
  rcases h.counter with rfl | hcounter
  · exact ⟨_, rfl, Or.inl rfl⟩
  · have hrange : IntTy.u32.InRange (v.consecutiveErrors.val + (1 : U32).val) := by
      have hbounds := v.consecutiveErrors.bounds
      rw [IntTy.inRange_u32]
      omega
    refine ⟨⟨_, hrange⟩, p.fit_of_inRange hrange, Or.inr ?_⟩
    show v.consecutiveErrors.val + (1 : U32).val + n ≤ 4294967295
    omega

theorem LedgerPoller.Steady.pred (h : poller.Steady p (n + 1) v) : poller.Steady p n v where
  backoff := h.backoff
  counter := h.counter.imp id fun hcounter => by omega

theorem getLatestLedger_ne_abort :
    RpcClient.getLatestLedger.Guarantees PollerOp.AnyReply (fun op _ => op ≠ .abort)
      (fun _ _ => True) () := by
  have hpost : (Program.request PollerOp.postGetLatestLedger : PollerM _).Guarantees
      PollerOp.AnyReply (fun op _ => op ≠ .abort) (fun _ _ => True) () :=
    ⟨by simp, fun _ _ _ => trivial⟩
  unfold RpcClient.getLatestLedger
  apply hpost.bind
  intro reply _ _
  split
  · trivial
  · trivial
  · exact ⟨by simp, fun _ _ _ => trivial⟩

theorem advanceTo_ne_abort (seq : U32) :
    (LedgerPoller.advanceTo seq).Guarantees PollerOp.AnyReply (fun op _ => op ≠ .abort)
      (fun _ _ => True) () := by
  unfold LedgerPoller.advanceTo
  refine ⟨by simp, fun last _ _ => ?_⟩
  show (if last < seq then _ else _ : PollerM _).Guarantees _ _ _ _
  split
  · exact ⟨by simp, fun _ _ _ => ⟨by simp, fun _ _ _ => ⟨by simp, fun _ _ _ => trivial⟩⟩⟩
  · trivial

/-- A success resets the policy, or leaves it as it is. -/
theorem onSequence_ne_abort
    (hrange : BackoffRange poller.retryBackoffInitial poller.retryBackoffMax)
    (h : poller.Steady p (n + 1) v) (seq : U32) :
    (poller.onSequence v seq).Guarantees PollerOp.AnyReply (fun op _ => op ≠ .abort)
      (fun v' _ => poller.Steady p n v') () := by
  have hreset : (poller.resetErrors v seq).Guarantees PollerOp.AnyReply
      (fun op _ => op ≠ .abort) (fun v' _ => poller.Steady p n v') () := by
    unfold LedgerPoller.resetErrors
    split
    · refine ⟨by simp, fun _ _ _ => ⟨⟨0, isBackoff_zero hrange⟩, ?_⟩⟩
      have hzero : (0 : U32).val = 0 := rfl
      have hbounds := v.consecutiveErrors.bounds
      exact h.counter.imp id fun hcounter => by
        show (0 : U32).val + n ≤ 4294967295
        omega
    · exact h.pred
  unfold LedgerPoller.onSequence
  apply hreset.bind
  intro v' _ h'
  apply (advanceTo_ne_abort seq).bind
  intro _ _ _
  exact h'

/-- A failure doubles the back-off within the range of the policy. -/
theorem onError_ne_abort
    (hrange : BackoffRange poller.retryBackoffInitial poller.retryBackoffMax)
    (h : poller.Steady p (n + 1) v) (e : TransientError) :
    (poller.onError p v e).Guarantees PollerOp.AnyReply (fun op _ => op ≠ .abort)
      (fun v' _ => poller.Steady p n v') () := by
  obtain ⟨errors, hadd, hcounter⟩ := h.count
  obtain ⟨k, hk⟩ := h.backoff
  obtain ⟨doubled, hdouble, hnext⟩ := hk.double hrange
  have hentry : PollerOp.log (LedgerPoller.errorEntry e errors v.backoff.asSecs) ≠ .abort :=
    PollerOp.noConfusion
  unfold LedgerPoller.onError
  rw [hadd]
  refine ⟨hentry, fun _ _ _ => ⟨by simp, fun _ _ _ => ?_⟩⟩
  show (PollerM.arith v.backoff.double >>= _).Guarantees _ _ _ _
  rw [hdouble]
  exact ⟨⟨k + 1, hnext⟩, hcounter⟩

/-- A poll does not abort, and leaves the policy in force. -/
theorem poll_ne_abort
    (hrange : BackoffRange poller.retryBackoffInitial poller.retryBackoffMax)
    (h : poller.Steady p (n + 1) v) :
    (poller.poll p v).Guarantees PollerOp.AnyReply (fun op _ => op ≠ .abort)
      (fun v' _ => poller.Steady p n v') () := by
  unfold LedgerPoller.poll
  refine ⟨by simp, fun _ _ _ => ?_⟩
  apply getLatestLedger_ne_abort.bind
  intro result _ _
  cases result with
  | ok seq => exact onSequence_ne_abort hrange h seq
  | error e => exact onError_ne_abort hrange h e

/-- By induction on the iterations. -/
theorem pollerIterations_ne_abort
    (hrange : BackoffRange poller.retryBackoffInitial poller.retryBackoffMax)
    (h : poller.Steady p n v) :
    (poller.iterations p n v).Guarantees PollerOp.AnyReply (fun op _ => op ≠ .abort)
      (fun _ _ => True) () := by
  induction n generalizing v with
  | zero => trivial
  | succ n ih =>
      unfold LedgerPoller.iterations
      apply (poll_ne_abort hrange h).bind
      intro v' _ h'
      exact ih h'

end Poller

/-! ## The tasks of a node -/

/-- What the task has come to when its code has panicked. -/
def NodeOp.IsAbort : NodeOp → Prop
  | .poller .abort => True
  | .discovery (.engine .abort) => True
  | _ => False

section Node

variable {χ : Type} {node : Node χ} {n : Nat} {h : List NodeAction} {c : NodePool χ}

/-- A query returns what it may return, and any other reply may come. -/
def Node.Queried (node : Node χ) : (op : DiscoveryOp) → op.Reply → Prop
  | .queryExecutableTasks seq, query => node.Queries seq query
  | _, _ => True

/-- The replies that the operations of the tasks may get. -/
def Node.Replies (node : Node χ) : (op : NodeOp) → Unit → op.Reply → Unit → Prop
  | .discovery op => fun _ r _ => node.Queried op r
  | _ => fun _ _ _ => True

/-- The end of the grace period of every task found is a ledger. -/
def Node.GraceFits (node : Node χ) : Prop :=
  ∀ seq query, node.Queries seq query → ∀ task ∈ query.found,
    (node.profile.add task.nextAllowedExecution 50).isSome

/-- By induction on the iterations. -/
theorem discoveryIterations_ne_abort
    (hrange : BackoffRange node.pipeline.retryBackoffInitial node.pipeline.retryBackoffMax)
    (hfits : node.GraceFits) :
    ((TaskDiscovery.wired node.pipeline).iterations node.crates node.profile n).Guarantees
      (fun op _ r _ => node.Queried op r) (fun op _ => op ≠ .engine .abort)
      (fun _ _ => True) () := by
  induction n with
  | zero => trivial
  | succ n ih =>
      refine ⟨by simp, fun receipt _ _ => ?_⟩
      cases receipt with
      | value event =>
          obtain ⟨seq⟩ := event
          refine ⟨by simp, fun query _ hquery => ?_⟩
          have hall : ((TaskDiscovery.wired node.pipeline).onLedgerAdvance node.crates
              node.profile query seq).inDiscovery.All (· ≠ .engine .abort) :=
            (all_onLedgerAdvance_ne_abort hrange (hfits seq query hquery)).embed
              fun op hop heq => hop (DiscoveryOp.engine.inj heq)
          have hadvance : ((TaskDiscovery.wired node.pipeline).onLedgerAdvance node.crates
              node.profile query seq).inDiscovery.Guarantees (fun op _ r _ => node.Queried op r)
              (fun op _ => op ≠ .engine .abort) (fun _ s => s = ()) () :=
            Program.Guarantees.of_all hall (fun _ hop => hop) fun _ _ _ _ _ => rfl
          exact hadvance.bind fun _ _ _ => ih
      | lagged skipped => exact ⟨by simp, fun _ _ _ => ih⟩
      | closed => exact ⟨by simp, fun _ _ _ => trivial⟩

/-- The code of a task, as the node is started. -/
theorem program_ne_abort
    (hpipeline : BackoffRange node.pipeline.retryBackoffInitial node.pipeline.retryBackoffMax)
    (hpoller : BackoffRange node.poller.retryBackoffInitial node.poller.retryBackoffMax)
    (hfits : node.GraceFits) (hcount : node.profile = .release ∨ n ≤ 4294967295) (i : NodeTask) :
    (node.program n i).Guarantees node.Replies (fun op _ => ¬ op.IsAbort) (fun _ _ => True) () := by
  cases i with
  | poller =>
      have hsteady : node.poller.Steady node.profile n
          { backoff := node.poller.retryBackoffInitial, consecutiveErrors := 0 } := by
        refine ⟨⟨0, isBackoff_zero hpoller⟩, hcount.imp id fun hle => ?_⟩
        show (0 : Int) + n ≤ 4294967295
        omega
      have hrun : ((node.poller.run node.profile n).embed NodeOp.poller fun _ r => r :
          NodeM LedgerPoller.Locals).Guarantees node.Replies (fun op _ => ¬ op.IsAbort)
          (fun _ _ => True) () := by
        refine Program.Guarantees.embed_view (fun _ => ()) ?_ ?_
          (pollerIterations_ne_abort hpoller hsteady)
        · exact fun _ _ _ _ _ => trivial
        · intro op _ hop habort
          cases op with
          | abort => exact hop rfl
          | _ => exact habort
      exact hrun.bind fun _ _ _ => trivial
  | discovery =>
      have htask : ((TaskDiscovery.wired node.pipeline).task node.crates node.profile n).Guarantees
          (fun op _ r _ => node.Queried op r) (fun op _ => op ≠ .engine .abort)
          (fun _ _ => True) () :=
        ⟨by simp, fun _ _ _ => discoveryIterations_ne_abort hpipeline hfits⟩
      refine Program.Guarantees.embed_view (fun _ => ()) ?_ ?_ htask
      · exact fun _ _ _ _ hreply => hreply
      · intro op _ hop habort
        cases op with
        | engine op =>
            cases op with
            | abort => exact hop rfl
            | _ => exact habort
        | _ => exact habort
  | health k =>
      have hserve : (serveHealth.embed NodeOp.health fun _ r => r : NodeM Unit).All
          (¬ NodeOp.IsAbort ·) := (Program.all_true _).embed fun _ _ => id
      exact (Program.Guarantees.of_all hserve (fun _ hop => hop) fun _ _ _ _ _ => rfl).imp
        (fun _ _ => id) fun _ _ _ => trivial

/-- The shared state answers by replies of that kind. -/
theorem Node.replies_of_answers {op : NodeOp} {r : op.Reply} {s s' : NodeState χ}
    (hanswer : node.Answers op s r s') : node.Replies op () r () := by
  cases op with
  | poller op => trivial
  | discovery op =>
      cases op with
      | queryExecutableTasks seq => exact hanswer.1
      | _ => trivial
  | health op => trivial

/-- An operation that does not abort is answered, unless the loop waits for the channel. -/
theorem Node.exists_answer (hqueries : ∀ seq, ∃ query, node.Queries seq query) {op : NodeOp}
    (hop : ¬ op.IsAbort) (s : NodeState χ) :
    (∃ r s', node.Answers op s r s') ∨
      op = .discovery .recv ∧ node.channel.receive s.channel = none := by
  cases op with
  | poller op =>
      cases op with
      | abort => exact absurd trivial hop
      | loadLastKnown => exact Or.inl ⟨_, _, rfl, rfl⟩
      | postGetLatestLedger => exact Or.inl ⟨.httpError 503, _, rfl⟩
      | _ => exact Or.inl ⟨(), _, rfl⟩
  | discovery op =>
      cases op with
      | subscribe => exact Or.inl ⟨(), _, rfl⟩
      | recv =>
          cases hreceive : node.channel.receive s.channel with
          | none => exact Or.inr ⟨rfl, rfl⟩
          | some result => exact Or.inl ⟨_, _, _, hreceive, rfl⟩
      | queryExecutableTasks seq =>
          obtain ⟨query, hquery⟩ := hqueries seq
          exact Or.inl ⟨query, _, hquery, rfl⟩
      | engine op =>
          left
          cases op with
          | abort => exact absurd trivial hop
          | containsInFlight taskId => exact ⟨_, s, ⟨rfl, rfl⟩, rfl⟩
          | insertInFlight taskId =>
              exact ⟨_, { s with inFlight := (s.inFlight.insert taskId).2 }, rfl, rfl⟩
          | removeInFlight taskId =>
              exact ⟨(), { s with inFlight := s.inFlight.remove taskId }, rfl, rfl⟩
          | postSendTransaction envelope => exact ⟨.httpError 503, s, rfl, rfl⟩
          | postGetTransaction hash => exact ⟨⟨0, .httpError 503⟩, s, rfl, rfl⟩
          | unixTime => exact ⟨none, s, rfl, rfl⟩
          | storeLastConfirmedTs ts => exact ⟨(), { s with lastConfirmedTs := ts }, rfl, rfl⟩
          | _ => exact ⟨(), s, rfl, rfl⟩
      | logChannelClosed => exact Or.inl ⟨(), _, rfl⟩
  | health op =>
      cases op with
      | respond response => exact Or.inl ⟨(), _, rfl⟩
      | _ => exact Or.inl ⟨_, _, rfl, rfl⟩

/-! ## Progress -/

/-- The task has come to its end, or its next operation is answered, or it is the discovery loop
and waits for the next ledger. -/
inductive Node.Goes (node : Node χ) (c : NodePool χ) (i : NodeTask) : Prop
  | finished (hprogram : c.program i = .done ())
  | steps {op : NodeOp} {r : op.Reply} {c' : NodePool χ}
      (hstep : Pool.Step node.Answers c ⟨i, op, r⟩ c')
  | waits {next : Receipt LedgerEvent → NodeM Unit} (hi : i = .discovery)
      (hprogram : c.program i = .perform (.discovery .recv) next)
      (hempty : node.channel.receive c.shared.channel = none)

/-- Every task of a run keeps its guarantees, whatever the other tasks do. -/
theorem goes_of_run
    (hpipeline : BackoffRange node.pipeline.retryBackoffInitial node.pipeline.retryBackoffMax)
    (hpoller : BackoffRange node.poller.retryBackoffInitial node.poller.retryBackoffMax)
    (hfits : node.GraceFits) (hcount : node.profile = .release ∨ n ≤ 4294967295)
    (hqueries : ∀ seq, ∃ query, node.Queries seq query) (hrun : node.Run n h c) (i : NodeTask) :
    node.Goes c i := by
  have hguarantees : (c.program i).Guarantees node.Replies (fun op _ => ¬ op.IsAbort)
      (fun _ _ => True) () :=
    hrun.guarantees (fun _ _ => ()) (K := fun _ _ => True) (fun _ => Program.all_true _)
      (fun _ _ _ _ _ _ hanswer => Node.replies_of_answers hanswer)
      (fun _ _ _ _ _ _ _ _ _ => rfl) (program_ne_abort hpipeline hpoller hfits hcount i)
  have howns := hrun.all_program (node.owns n) i
  cases hprogram : c.program i with
  | done _ => exact .finished hprogram
  | perform op next =>
      rw [hprogram] at hguarantees howns
      rcases Node.exists_answer hqueries hguarantees.1 c.shared with
        ⟨r, s', hanswer⟩ | ⟨rfl, hempty⟩
      · exact .steps (.perform hprogram hanswer)
      · -- only the discovery loop receives
        have hi : i = .discovery := by
          cases i with
          | discovery => rfl
          | poller => exact howns.1.elim
          | health k => exact howns.1.elim
        exact .waits hi hprogram hempty

end Node

section Configured

variable {χ : Type} {crates : Crates} {p : Profile} {env : Environment} {cfg : EngineConfig}
  {keeperAddress : String} {signingKeyBytes : Anchor.BytesN 32}
  {channel : BroadcastChannel LedgerEvent χ} {Queries : U32 → TaskQuery → Prop} {n : Nat}
  {h : List NodeAction} {c : NodePool χ}

/-- The node that `main` builds, with queries that return what `Queries` says. -/
def Node.ofConfigWith (crates : Crates) (p : Profile) (cfg : EngineConfig) (keeperAddress : String)
    (signingKeyBytes : Anchor.BytesN 32) (channel : BroadcastChannel LedgerEvent χ)
    (Queries : U32 → TaskQuery → Prop) : Node χ :=
  { Node.ofConfig crates p cfg keeperAddress signingKeyBytes channel with Queries := Queries }

/-- Under an accepted configuration neither the poller nor the discovery loop nor the handling of a
health request ever panics or blocks. In a debug build this takes fewer than `2 ^ 32` polls, and
tasks whose grace period ends at a ledger. -/
theorem configured_node_progresses (hcfg : fromEnv env = .ok cfg)
    (hqueries : ∀ seq, ∃ query, Queries seq query)
    (hdebug : p = .debug → n < 4294967296 ∧ ∀ seq query, Queries seq query →
      ∀ task ∈ query.found, task.nextAllowedExecution.val + 50 < 4294967296)
    (hrun : (Node.ofConfigWith crates p cfg keeperAddress signingKeyBytes channel Queries).Run n
      h c) (i : NodeTask) :
    (Node.ofConfigWith crates p cfg keeperAddress signingKeyBytes channel Queries).Goes c i := by
  have hrange : BackoffRange cfg.retryBackoffInitial cfg.retryBackoffMax :=
    backoffRange_of_fromEnv hcfg
  have hcount : p = .release ∨ n ≤ 4294967295 := by
    cases p with
    | release => exact Or.inl rfl
    | debug => exact Or.inr (Nat.le_of_lt_succ (hdebug rfl).1)
  have hfits : (Node.ofConfigWith crates p cfg keeperAddress signingKeyBytes channel
      Queries).GraceFits := by
    intro seq query hquery task htask
    cases p with
    | release => rfl
    | debug =>
        have hbounds := task.nextAllowedExecution.bounds
        have hlast := (hdebug rfl).2 seq query hquery task htask
        have hinRange : IntTy.u32.InRange (task.nextAllowedExecution.val + (50 : U32).val) := by
          have hfifty : (50 : U32).val = 50 := rfl
          rw [IntTy.inRange_u32]
          omega
        exact Option.isSome_iff_exists.2 ⟨_, Profile.debug.fit_of_inRange hinRange⟩
  exact goes_of_run hrange hrange hfits hcount hqueries hrun i

/-- A debug build under the sample settings; queries find the sample task. -/
def sampleConfiguredNode : Node (BroadcastBuffer LedgerEvent) :=
  Node.ofConfigWith sampleCrates .debug (sampleSettings.toConfig none) "G3" sampleSigningKey
    ledgerChannel fun _ query => query = .tasks [sampleRemoteTask 100]

/-- The poller has been refused once, and the loop waits. -/
theorem configured_node_progresses_sample : ∃ h c, sampleConfiguredNode.Run 2 h c ∧
    sampleConfiguredNode.channel.receive c.shared.channel = none ∧
    ∀ i, sampleConfiguredNode.Goes c i := by
  have h₀ : sampleConfiguredNode.Run 2 [] _ := .start
  have h₁ := h₀.perform .discovery (.discovery .subscribe) () rfl rfl
  have h₂ := h₁.perform .poller (.poller (.sleep _)) () rfl rfl
  have h₃ := h₂.perform .poller (.poller .postGetLatestLedger) (.httpError 503) rfl rfl
  have hqueries : ∀ seq, ∃ query, sampleConfiguredNode.Queries seq query := fun _ => ⟨_, rfl⟩
  refine ⟨_, _, h₃, rfl, fun i => ?_⟩
  refine configured_node_progresses fromEnv_sampleEnvironment hqueries ?_ h₃ i
  rintro -
  refine ⟨by decide, fun seq query hquery task htask => ?_⟩
  rw [hquery] at htask
  rw [List.mem_singleton.1 htask]
  decide

end Configured

end ChronosKeeper.Engine
