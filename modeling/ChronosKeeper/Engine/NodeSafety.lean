import ChronosKeeper.Engine.Delivery
import ChronosKeeper.Engine.Solo

/-!
# What the running engine dispatches

In every run of the node, under every schedule of its tasks, the discovery loop has the in-flight
set to itself: no test ever finds a task in flight and no insertion is ever refused, at most one
task is in flight, the one that the loop is submitting or confirming, and none while the loop waits
for the next ledger (`dispatch_is_exclusive`).
Every transaction submitted is that of a task which the query for the ledger at hand has found, in
the role decided on at this ledger (`submission_is_justified`).

`LoopView` is what the loop relies on: the set, the ledger it was last given and the tasks found
for it. No other task of the node touches these.
-/

set_option autoImplicit false

namespace ChronosKeeper.Engine

open ChronosKeeper.Foundations

/-! ## The view of the loop -/

/-- The ledger that the loop was last given and the tasks found for it. -/
structure Attention where
  ledger : Option U32
  found : List RemoteTask

def Attention.next (a : Attention) : NodeAction → Attention
  | ⟨_, .discovery .recv, .value (.advance seq)⟩ => { ledger := some seq, found := [] }
  | ⟨_, .discovery (.queryExecutableTasks _), query⟩ => { a with found := TaskQuery.found query }
  | _ => a

/-- What the history says about the loop. -/
def attention (h : List NodeAction) : Attention :=
  h.foldl Attention.next { ledger := none, found := [] }

theorem attention_concat (h : List NodeAction) (e : NodeAction) :
    attention (h ++ [e]) = (attention h).next e := List.foldl_append

structure LoopView where
  inFlight : InFlightSet
  attention : Attention

variable {χ : Type} {node : Node χ} {n : Nat} {h : List NodeAction} {c c' : NodePool χ}

/-- The answers of the shared state as the loop sees them. -/
def LoopView.Answers (node : Node χ) (op : DiscoveryOp) (v : LoopView) (r : op.Reply)
    (v' : LoopView) : Prop :=
  v'.attention = v.attention.next ⟨.discovery, .discovery op, r⟩ ∧
    match op, r with
    | .engine op, r => InFlightSet.Answers op v.inFlight r v'.inFlight
    | .queryExecutableTasks seq, query => node.Queries seq query ∧ v'.inFlight = v.inFlight
    | _, _ => v'.inFlight = v.inFlight

/-- What the operations of the loop meet. Without a ledger, the loop only logs. -/
def LoopView.Meets (node : Node χ) : DiscoveryOp → LoopView → Prop
  | .recv, v => v.inFlight = ∅
  | .queryExecutableTasks seq, v => v.inFlight = ∅ ∧ v.attention.ledger = some seq
  | .engine op, v =>
      (∃ entry, op = .log entry) ∨ ∃ seq query, v.attention = ⟨some seq, query.found⟩ ∧
        node.Queries seq query ∧
        Solo node.crates node.profile node.pipeline query.found seq op v.inFlight
  | _, _ => True

/-! ## The guarantees of the loop -/

/-- By induction on the iterations: each leaves the set empty for the next one. -/
theorem guarantees_iterations (a : Attention) :
    ((TaskDiscovery.wired node.pipeline).iterations node.crates node.profile n).Guarantees
      (LoopView.Answers node) (LoopView.Meets node) (fun _ v => v.inFlight = ∅) ⟨∅, a⟩ := by
  induction n generalizing a with
  | zero => exact rfl
  | succ n ih =>
      refine ⟨rfl, ?_⟩
      rintro receipt ⟨s, a₁⟩ ⟨hattention, hsame⟩
      obtain rfl : s = ∅ := hsame
      cases receipt with
      | value event =>
          obtain ⟨seq⟩ := event
          obtain rfl : a₁ = ⟨some seq, []⟩ := hattention
          refine ⟨⟨rfl, rfl⟩, ?_⟩
          rintro query ⟨s₂, a₂⟩ ⟨hattention₂, hquery, hsame₂⟩
          obtain rfl : s₂ = ∅ := hsame₂
          obtain rfl : a₂ = ⟨some seq, query.found⟩ := hattention₂
          -- the advance keeps the ledger and the tasks, and leaves the set empty
          show (((TaskDiscovery.wired node.pipeline).onLedgerAdvance node.crates node.profile query
            seq).inDiscovery >>= _).Guarantees _ _ _ _
          apply Program.Guarantees.bind
            (R := fun _ v => v.inFlight = ∅ ∧ v.attention = ⟨some seq, query.found⟩)
          · refine Program.Guarantees.embed (Q := fun _ s => s = ∅) LoopView.inFlight
              (fun v => v.attention = ⟨some seq, query.found⟩) ?_ ?_ ?_
              (guarantees_onLedgerAdvance query) rfl
            · exact fun op v r v' hanswer => hanswer.2
            · exact fun op v r v' hanswer hv => hanswer.1.trans hv
            · exact fun op v hv hsolo => Or.inr ⟨seq, query, hv, hquery, hsolo⟩
          · rintro _ ⟨s₃, a₃⟩ ⟨hempty, -⟩
            obtain rfl : s₃ = ∅ := hempty
            exact ih a₃
      | lagged skipped =>
          refine ⟨Or.inl ⟨_, rfl⟩, ?_⟩
          rintro _ ⟨s₂, a₂⟩ ⟨-, hsame₂⟩
          obtain rfl : s₂ = ∅ := hsame₂
          exact ih a₂
      | closed =>
          refine ⟨trivial, ?_⟩
          rintro _ ⟨s₂, a₂⟩ ⟨-, hsame₂⟩
          exact hsame₂

/-- The view of the loop on a state, with the history that leads to it. -/
def loopView (h : List NodeAction) (s : NodeState χ) : LoopView := ⟨s.inFlight, attention h⟩

/-- The relation of the loop, as one on the operations of the node. -/
def LoopAnswers (node : Node χ) : (op : NodeOp) → LoopView → op.Reply → LoopView → Prop
  | .discovery op => LoopView.Answers node op
  | _ => fun _ _ _ => True

def LoopMeets (node : Node χ) : NodeOp → LoopView → Prop
  | .discovery op => LoopView.Meets node op
  | _ => fun _ => True

theorem guarantees_discovery :
    ((node.start n).program .discovery).Guarantees (LoopAnswers node) (LoopMeets node)
      (fun _ v => v.inFlight = ∅) (loopView [] (node.start n).shared) := by
  have htask : ((TaskDiscovery.wired node.pipeline).task node.crates node.profile n).Guarantees
      (LoopView.Answers node) (LoopView.Meets node) (fun _ v => v.inFlight = ∅)
      ⟨∅, ⟨none, []⟩⟩ := by
    refine ⟨trivial, ?_⟩
    rintro _ ⟨s, a⟩ ⟨-, hsame⟩
    obtain rfl : s = ∅ := hsame
    exact guarantees_iterations a
  refine Program.Guarantees.embed_view (fun v => v) ?_ ?_ htask
  · exact fun _ _ _ _ hanswer => hanswer
  · exact fun _ _ hmeets => hmeets

/-! ## The operations and the view -/

/-- The operations of the loop act on its view as it expects. -/
theorem loopView_own (h : List NodeAction) (s : NodeState χ) (op : NodeOp) (r : op.Reply)
    (s' : NodeState χ) (howns : NodeTask.discovery.Owns op) (hanswer : node.Answers op s r s') :
    LoopAnswers node op (loopView h s) r (loopView (h ++ [⟨.discovery, op, r⟩]) s') := by
  cases op with
  | poller op => exact howns.elim
  | health op => exact howns.elim
  | discovery op =>
      refine ⟨attention_concat h _, ?_⟩
      cases op with
      | subscribe =>
          have hs' : s' = { s with channel := node.channel.subscribe s.channel } := hanswer
          subst hs'
          rfl
      | recv =>
          obtain ⟨channel, -, rfl⟩ := hanswer
          rfl
      | queryExecutableTasks seq =>
          obtain ⟨hquery, rfl⟩ := hanswer
          exact ⟨hquery, rfl⟩
      | engine op => exact hanswer.1
      | logChannelClosed =>
          have hs' : s' = s := hanswer
          subst hs'
          rfl

/-- The other tasks leave the set alone. -/
theorem inFlight_of_other {s s' : NodeState χ} {j : NodeTask} {op : NodeOp} {r : op.Reply}
    (hj : j ≠ .discovery) (howns : j.Owns op) (hanswer : node.Answers op s r s') :
    s'.inFlight = s.inFlight := by
  rw [(Node.shared_after hanswer).2.2]
  cases op with
  | poller op => rfl
  | health op => rfl
  | discovery op =>
      cases j with
      | discovery => exact absurd rfl hj
      | poller => exact howns.elim
      | health request => exact howns.elim

theorem loopView_other (h : List NodeAction) (s : NodeState χ) (j : NodeTask) (op : NodeOp)
    (r : op.Reply) (s' : NodeState χ) (hj : j ≠ .discovery) (howns : j.Owns op)
    (hanswer : node.Answers op s r s') :
    loopView (h ++ [⟨j, op, r⟩]) s' = loopView h s := by
  have hattention : attention (h ++ [⟨j, op, r⟩]) = attention h := by
    rw [attention_concat]
    cases op with
    | discovery op =>
        cases j with
        | discovery => exact absurd rfl hj
        | poller => exact howns.elim
        | health request => exact howns.elim
    | poller op => rfl
    | health op => rfl
  unfold loopView
  rw [hattention, inFlight_of_other hj howns hanswer]

/-- Every operation of the loop meets its condition and acts on its view. -/
theorem loop_meets (hrun : node.Run n h c) {i : NodeTask} {op : DiscoveryOp} {r : op.Reply}
    (hstep : Pool.Step node.Answers c ⟨i, .discovery op, r⟩ c') :
    LoopView.Meets node op (loopView h c.shared) ∧
      LoopView.Answers node op (loopView h c.shared) r
        (loopView (h ++ [⟨i, .discovery op, r⟩]) c'.shared) := by
  obtain ⟨howns, hanswer⟩ := owns_of_step hrun hstep
  cases i with
  | poller => exact howns.elim
  | health request => exact howns.elim
  | discovery =>
      refine ⟨?_, loopView_own h _ _ _ _ howns hanswer⟩
      exact (hrun.meets loopView (node.owns n) loopView_own loopView_other guarantees_discovery
        hstep).2

/-! ## Exclusive dispatch -/

/-- What the loop finds in a set that it has to itself: nothing between the ledgers and before a
dispatch, and in between the one task at hand, which is among those found for the ledger. -/
def Exclusive (node : Node χ) (found : List RemoteTask) (s : InFlightSet) :
    (op : DiscoveryOp) → op.Reply → Prop
  | .recv, _ => s = ∅
  | .queryExecutableTasks _, _ => s = ∅
  | .engine (.containsInFlight _), answer => answer = false
  | .engine (.insertInFlight taskId), inserted => inserted = true ∧ s = ∅ ∧
      ∃ task ∈ found, taskId = parseTaskId node.crates task.taskIdHex
  | .engine (.removeInFlight taskId), _ => s = {taskId}
  | .engine (.postSendTransaction envelope), _ => ∃ task ∈ found,
      (∃ role, envelope = node.pipeline.buildSignedTransaction node.crates task role) ∧
        s = {parseTaskId node.crates task.taskIdHex}
  | .engine (.postGetTransaction _), _ =>
      ∃ task ∈ found, s = {parseTaskId node.crates task.taskIdHex}
  | .engine (.storeLastConfirmedTs _), _ =>
      ∃ task ∈ found, s = {parseTaskId node.crates task.taskIdHex}
  | _, _ => True

theorem exclusive_of_meets {v v' : LoopView} {op : DiscoveryOp} {r : op.Reply}
    (hmeets : LoopView.Meets node op v) (hanswer : LoopView.Answers node op v r v') :
    Exclusive node v.attention.found v.inFlight op r := by
  cases op with
  | subscribe => trivial
  | recv => exact hmeets
  | queryExecutableTasks seq => exact hmeets.1
  | logChannelClosed => trivial
  | engine op =>
      rcases hmeets with ⟨entry, rfl⟩ | ⟨seq, query, hattention, -, hsolo⟩
      · trivial
      -- the tasks of the query are the ones found for the ledger
      have hfound : v.attention.found = query.found := congrArg Attention.found hattention
      rw [← hfound] at hsolo
      cases op with
      | containsInFlight taskId =>
          have hs : v.inFlight = ∅ := hsolo
          have hfound : r = v.inFlight.contains taskId := hanswer.2.1
          rw [hs] at hfound
          exact hfound.trans (decide_eq_false (Finset.notMem_empty _))
      | insertInFlight taskId =>
          obtain ⟨hs, htask⟩ := hsolo
          have hinserted : (r, v'.inFlight) = v.inFlight.insert taskId := hanswer.2
          rw [hs] at hinserted
          obtain ⟨rfl, -⟩ := Prod.mk.inj hinserted
          exact ⟨decide_eq_true (Finset.notMem_empty _), hs, htask⟩
      | removeInFlight taskId => exact hsolo
      | postSendTransaction envelope =>
          obtain ⟨task, htask, role, -, henvelope, hs⟩ := hsolo
          exact ⟨task, htask, ⟨role, henvelope⟩, hs⟩
      | postGetTransaction hash => exact hsolo
      | storeLastConfirmedTs ts => exact hsolo
      | _ => trivial

/-- One operation of the loop. -/
theorem card_le_one_step {v v' : LoopView} {op : DiscoveryOp} {r : op.Reply}
    (hcard : v.inFlight.card ≤ 1) (hmeets : LoopView.Meets node op v)
    (hanswer : LoopView.Answers node op v r v') : v'.inFlight.card ≤ 1 := by
  have hexclusive := exclusive_of_meets hmeets hanswer
  have hsame : v'.inFlight = v.inFlight → v'.inFlight.card ≤ 1 := fun h => h ▸ hcard
  cases op with
  | subscribe => exact hsame hanswer.2
  | recv => exact hsame hanswer.2
  | queryExecutableTasks seq => exact hsame hanswer.2.2
  | logChannelClosed => exact hsame hanswer.2
  | engine op =>
      cases op with
      | containsInFlight taskId => exact hsame hanswer.2.2
      | insertInFlight taskId =>
          have hinserted : (r, v'.inFlight) = v.inFlight.insert taskId := hanswer.2
          have hs' : v'.inFlight = insert taskId v.inFlight := congrArg Prod.snd hinserted
          rw [hs', hexclusive.2.1]
          exact (Finset.card_singleton taskId).le
      | removeInFlight taskId =>
          have hs' : v'.inFlight = v.inFlight.erase taskId := hanswer.2
          rw [hs']
          exact (Finset.card_erase_le).trans hcard
      | _ => exact hsame hanswer.2

/-- What a step does to the view of the loop: the loop goes on, or nothing changes. -/
theorem loopView_step (hrun : node.Run n h c) {e : NodeAction}
    (hstep : Pool.Step node.Answers c e c') :
    (∃ op r, e = ⟨.discovery, .discovery op, r⟩ ∧ LoopView.Meets node op (loopView h c.shared) ∧
      LoopView.Answers node op (loopView h c.shared) r (loopView (h ++ [e]) c'.shared)) ∨
    loopView (h ++ [e]) c'.shared = loopView h c.shared := by
  obtain ⟨i, op, r⟩ := e
  obtain ⟨howns, hanswer⟩ := owns_of_step hrun hstep
  by_cases hi : i = .discovery
  · subst hi
    cases op with
    | discovery op => exact Or.inl ⟨op, r, rfl, loop_meets hrun hstep⟩
    | poller op => exact howns.elim
    | health op => exact howns.elim
  · exact Or.inr (loopView_other h _ _ _ _ _ hi howns hanswer)

theorem card_inFlight_le_one (hrun : node.Run n h c) : c.shared.inFlight.card ≤ 1 := by
  induction hrun with
  | start => exact Nat.zero_le 1
  | step hrun hstep ih =>
      rcases loopView_step hrun hstep with ⟨op, r, -, hmeets, hanswer⟩ | hsame
      · exact card_le_one_step ih hmeets hanswer
      · exact (congrArg (fun v : LoopView => v.inFlight.card) hsame).trans_le ih

/-- The attempts begin with a submission, and end with an entry in the log if that is refused for
good. -/
theorem executeWithRetry_eq_perform (crates : Crates) (pipeline : ExecutionPipeline)
    (task : RemoteTask) (role : ExecutionRole) :
    ∃ next, pipeline.executeWithRetry crates task role =
        .perform (.postSendTransaction (pipeline.buildSignedTransaction crates task role)) next ∧
      next (.json none ⟨none⟩) = log (.droppingTask task.taskIdHex (.contractRejection
        "missing 'hash' in sendTransaction response")) := by
  unfold ExecutionPipeline.executeWithRetry ExecutionPipeline.attemptsFrom
  exact ⟨_, rfl, rfl⟩

/-- What the designated keeper still has to do for the ledger, with the attempts to come. -/
def sampleRest (attempts : EngineM Unit) : NodeM Unit :=
  (((attempts >>= fun _ => removeInFlight (parseTaskId sampleCrates sampleTaskIdHex)) >>= fun _ =>
    pure ()).inDiscovery >>= fun _ =>
      (TaskDiscovery.wired (samplePipeline 3)).iterations sampleCrates .release 1 :
        DiscoveryM Unit).embed NodeOp.discovery fun _ r => r

/-- At the scheduled ledger the designated keeper finds the task and inserts it. -/
def sampleDispatch : List NodeAction :=
  sampleHistory ++
    [⟨.discovery, .discovery (.queryExecutableTasks 100), .tasks [sampleRemoteTask 100]⟩,
      ⟨.discovery, .discovery (.engine (.log (.discoveredTasks 100 1))), ()⟩,
      ⟨.discovery, .discovery (.engine (.containsInFlight
        (parseTaskId sampleCrates sampleTaskIdHex))), false⟩,
      ⟨.discovery, .discovery (.engine (.insertInFlight
        (parseTaskId sampleCrates sampleTaskIdHex))), true⟩]

theorem run_sampleDispatch : ∃ c, sampleNode.Run 2 sampleDispatch c ∧
    c.shared = ⟨100, 0, {parseTaskId sampleCrates sampleTaskIdHex}, ⟨true, [], 0⟩⟩ ∧
    c.program .discovery = sampleRest ((samplePipeline 3).executeWithRetry sampleCrates
      (sampleRemoteTask 100) .designated) ∧
    c.program .poller = ((sampleNode.poller.iterations .release 1
      { backoff := sampleNode.poller.retryBackoffInitial, consecutiveErrors := 0 }).embed
        NodeOp.poller fun _ r => r) >>= fun _ => pure () := by
  obtain ⟨c, hrun, hshared, hprogram, hpoller, -⟩ := run_sample
  have h₁ := hrun.perform .discovery (.discovery (.queryExecutableTasks 100))
    (.tasks [sampleRemoteTask 100]) hprogram ⟨rfl, hshared.symm⟩
  have h₂ := h₁.perform .discovery (.discovery (.engine (.log (.discoveredTasks 100 1)))) () rfl
    ⟨rfl, rfl⟩
  have h₃ := h₂.perform (s := ⟨100, 0, ∅, ⟨true, [], 0⟩⟩) .discovery
    (.discovery (.engine (.containsInFlight _))) false rfl ⟨⟨rfl, rfl⟩, rfl⟩
  have h₄ := h₃.perform (s := ⟨100, 0, {parseTaskId sampleCrates sampleTaskIdHex}, ⟨true, [], 0⟩⟩)
    .discovery (.discovery (.engine (.insertInFlight _))) true (by with_unfolding_all rfl)
    ⟨rfl, rfl⟩
  exact ⟨_, h₄, rfl, rfl, hpoller⟩

/-- Then it submits. -/
theorem run_sample_submits : ∃ c c' envelope r, sampleNode.Run 2 sampleDispatch c ∧
    Pool.Step sampleNode.Answers c
      ⟨.discovery, .discovery (.engine (.postSendTransaction envelope)), r⟩ c' := by
  obtain ⟨c, hrun, -, hprogram, -⟩ := run_sampleDispatch
  obtain ⟨next, hnext, -⟩ := executeWithRetry_eq_perform sampleCrates (samplePipeline 3)
    (sampleRemoteTask 100) .designated
  rw [hnext] at hprogram
  exact ⟨c, _, _, .sendError true false "", hrun, .perform hprogram ⟨rfl, rfl⟩⟩

/-- In every run there is at most one task in flight, and the loop finds in the set what a
dispatcher finds that has it to itself: while it submits and confirms, the task at hand and no
other. -/
theorem dispatch_is_exclusive (hrun : node.Run n h c) :
    c.shared.inFlight.card ≤ 1 ∧
      ∀ i op r c', Pool.Step node.Answers c ⟨i, .discovery op, r⟩ c' →
        Exclusive node (attention h).found c.shared.inFlight op r := by
  refine ⟨card_inFlight_le_one hrun, fun i op r c' hstep => ?_⟩
  obtain ⟨hmeets, hanswer⟩ := loop_meets hrun hstep
  exact exclusive_of_meets hmeets hanswer

/-- While the designated keeper submits, its task is the one in flight. -/
theorem dispatch_is_exclusive_sample : ∃ c, sampleNode.Run 2 sampleDispatch c ∧
    c.shared.inFlight = {parseTaskId sampleCrates sampleTaskIdHex} ∧
    c.shared.inFlight.card ≤ 1 := by
  obtain ⟨c, c', envelope, r, hrun, hstep⟩ := run_sample_submits
  have hexclusive := dispatch_is_exclusive hrun
  obtain ⟨task, htask, -, hs⟩ := hexclusive.2 _ _ _ _ hstep
  have htask' : task = sampleRemoteTask 100 := List.mem_singleton.1 htask
  rw [htask'] at hs
  exact ⟨c, hrun, hs, hexclusive.1⟩

/-! ## Justified submissions -/

/-- The ledger at hand was broadcast. -/
theorem mem_broadcastLedgers_of_attention (hrun : node.Run n h c) {seq : U32} :
    (attention h).ledger = some seq → seq.val ∈ broadcastLedgers h := by
  induction hrun with
  | start => exact fun hledger => nomatch hledger
  | @step h c c' e hrun hstep ih =>
      intro hledger
      rw [broadcastLedgers_concat]
      rw [attention_concat] at hledger
      have hold : (attention h).ledger = some seq → seq.val ∈
          broadcastLedgers h ++ broadcastLedgers [e] := fun hledger =>
        List.mem_append_left _ (ih hledger)
      obtain ⟨i, op, r⟩ := e
      cases op with
      | poller op => exact hold hledger
      | health op => exact hold hledger
      | discovery op =>
          cases op with
          | recv =>
              cases r with
              | value event =>
                  -- the ledger is the one that is received
                  obtain ⟨seq'⟩ := event
                  cases hledger
                  obtain ⟨channel, hreceive, -⟩ := (owns_of_step hrun hstep).2
                  have hmem := (follows_of_run hrun).mem_sends_of_receive hreceive
                  exact List.mem_append_left _ (List.mem_map_of_mem hmem)
              | lagged skipped => exact hold hledger
              | closed => exact hold hledger
          | _ => exact hold hledger

/-- Whatever is submitted in a run is the envelope of a task that a query for the last ledger
given to the loop has found, in the role decided on at this ledger, while this task alone is in
flight. The poller has broadcast this ledger, and may be ahead of it. -/
theorem submission_is_justified (hrun : node.Run n h c) {i : NodeTask} {envelope : String}
    {r : HttpReply SendTxResult}
    (hstep : Pool.Step node.Answers c
      ⟨i, .discovery (.engine (.postSendTransaction envelope)), r⟩ c') :
    ∃ seq query, attention h = ⟨some seq, query.found⟩ ∧ node.Queries seq query ∧
      Justified node.crates node.profile node.pipeline query.found seq envelope
        c.shared.inFlight ∧
      seq.val ∈ broadcastLedgers h ∧ seq ≤ c.shared.lastKnown := by
  obtain ⟨entry, hlog⟩ | ⟨seq, query, hattention, hquery, hjustified⟩ := (loop_meets hrun hstep).1
  · cases hlog
  · have hmem : seq.val ∈ broadcastLedgers h :=
      mem_broadcastLedgers_of_attention hrun (congrArg Attention.ledger hattention)
    exact ⟨seq, query, hattention, hquery, hjustified, hmem,
      MachineInt.le_iff.2 ((counter_of_run hrun).synced _ hmem)⟩

theorem submission_is_justified_sample : ∃ c envelope, sampleNode.Run 2 sampleDispatch c ∧
    Justified sampleCrates .release (samplePipeline 3) [sampleRemoteTask 100] 100 envelope
      c.shared.inFlight := by
  obtain ⟨c, c', envelope, r, hrun, hstep⟩ := run_sample_submits
  obtain ⟨seq, query, hattention, -, hjustified, -⟩ := submission_is_justified hrun hstep
  have hledger : (100 : U32) = seq := Option.some.inj (congrArg Attention.ledger hattention)
  have hfound : [sampleRemoteTask 100] = query.found := congrArg Attention.found hattention
  rw [← hledger, ← hfound] at hjustified
  exact ⟨c, envelope, hrun, hjustified⟩

end ChronosKeeper.Engine
