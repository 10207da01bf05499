import ChronosKeeper.Engine.Reports
import ChronosKeeper.Engine.Visits

/-!
# The plan of the engine

`planned` is what the engine is for: for every ledger that the loop is given, the tasks that the
query finds, each in the role that `decision` gives. The loop submits what is planned, in this
order, each envelope up to as many times in a row as the retries allow, and nothing else. This
holds of a complete run of the loop (`submissions_follow_plan`), and in every run of the node
whenever the loop turns to the next ledger (`node_follows_plan`). The replies of the endpoint decide
how often an envelope is submitted again, but not what is.
-/

set_option autoImplicit false

namespace ChronosKeeper.Engine

open ChronosKeeper.Foundations

/-! ## The plan -/

/-- The tasks found, each with the ledger it is found at. -/
def foundAt : List Received → List (RemoteTask × U32)
  | [] => []
  | .advance seq query :: rest => query.found.map (fun task => (task, seq)) ++ foundAt rest
  | .lagged _ :: rest => foundAt rest

/-- The envelope for a task at a ledger, if this node is to execute it. -/
def plannedEnvelope (crates : Crates) (p : Profile) (pipeline : ExecutionPipeline)
    (found : RemoteTask × U32) : Option String :=
  (decision p found.1.nextAllowedExecution found.2
    (decide (found.1.designatedKeeper = pipeline.keeperAddress))).map
      (pipeline.buildSignedTransaction crates found.1)

/-- The envelopes that are to be submitted, in order. -/
def planned (crates : Crates) (p : Profile) (pipeline : ExecutionPipeline)
    (events : List Received) : List String :=
  (foundAt events).filterMap (plannedEnvelope crates p pipeline)

/-- The second list repeats every entry of the first one, in a row and `limit` times at most. -/
inductive Repeats {α : Type} (limit : Nat) : List α → List α → Prop
  | nil : Repeats limit [] []
  | cons {a : α} {k : Nat} {l l' : List α} (hpos : 1 ≤ k) (hle : k ≤ limit)
      (h : Repeats limit l l') : Repeats limit (a :: l) (List.replicate k a ++ l')

theorem Repeats.append {α : Type} {limit : Nat} {l₁ l₁' l₂ l₂' : List α}
    (h₁ : Repeats limit l₁ l₁') (h₂ : Repeats limit l₂ l₂') :
    Repeats limit (l₁ ++ l₂) (l₁' ++ l₂') := by
  induction h₁ with
  | nil => exact h₂
  | cons hpos hle _ ih =>
      rw [List.cons_append, List.append_assoc]
      exact .cons hpos hle ih

/-! ## A visit -/

/-- The envelopes submitted, in order. -/
def envelopes (t : List EngineEvent) : List String := t.filterMap fun e => submitted e.op

theorem envelopes_append (t₁ t₂ : List EngineEvent) :
    envelopes (t₁ ++ t₂) = envelopes t₁ ++ envelopes t₂ := List.filterMap_append

/-- There is an envelope for each reply to a submission. -/
theorem length_envelopes (t : List EngineEvent) :
    (envelopes t).length = (submissions t).length := by
  induction t with
  | nil => rfl
  | cons e t ih =>
      obtain ⟨op, r⟩ := e
      cases op with
      | postSendTransaction envelope => exact congrArg Nat.succ ih
      | _ => exact ih

theorem exists_send_of_mem_envelopes {t : List EngineEvent} {envelope : String}
    (h : envelope ∈ envelopes t) : ∃ reply, ⟨.postSendTransaction envelope, reply⟩ ∈ t := by
  obtain ⟨⟨op, r⟩, he, hop⟩ := List.mem_filterMap.1 h
  cases op with
  | postSendTransaction envelope' =>
      cases hop
      exact ⟨r, he⟩
  | _ => cases hop

variable {crates : Crates} {p : Profile} {pipeline : ExecutionPipeline} {task : RemoteTask}
  {role : ExecutionRole} {currentLedger : U32} {t : List EngineEvent} {s s' : InFlightSet}

/-- The attempts in a role submit its envelope, and no other. -/
theorem SubmitsAs.repeats (h : SubmitsAs crates pipeline task role t) :
    Repeats (pipeline.maxRetries.val.toNat + 1)
      [pipeline.buildSignedTransaction crates task role] (envelopes t) := by
  have hsame : envelopes t = List.replicate (submissions t).length
      (pipeline.buildSignedTransaction crates task role) := by
    rw [List.eq_replicate_iff]
    refine ⟨length_envelopes t, fun envelope hmem => ?_⟩
    obtain ⟨reply, he⟩ := exists_send_of_mem_envelopes hmem
    exact h.envelope he
  rw [hsame, ← List.append_nil (List.replicate _ _)]
  exact .cons h.length_pos h.length_le .nil

/-- A visit that the set does not stop submits as `decision` says, by the comparisons that both
make. -/
theorem visit_follows_plan (hs : parseTaskId crates task.taskIdHex ∉ s)
    (ht : ((TaskDiscovery.wired pipeline).classifyAndDispatch crates p task
      currentLedger).Returns t ())
    (hanswered : Answered InFlightSet.Answers t s s') :
    Repeats (pipeline.maxRetries.val.toNat + 1)
      (plannedEnvelope crates p pipeline (task, currentLedger)).toList (envelopes t) := by
  unfold TaskDiscovery.classifyAndDispatch at ht
  obtain ⟨t₁, rfl, hrest, hanswered₁⟩ := returns_contains hs ht hanswered
  simp only [Bool.false_eq_true, if_false] at hrest
  -- the test is no submission
  show Repeats _ _ (envelopes t₁)
  unfold plannedEnvelope decision
  by_cases hdesignated : currentLedger = task.nextAllowedExecution ∧
      task.designatedKeeper = (TaskDiscovery.wired pipeline).keeperAddress
  · rw [if_pos hdesignated] at hrest
    rw [if_pos ⟨hdesignated.1, decide_eq_true hdesignated.2⟩]
    exact (submitsAs_of_dispatch hs hrest hanswered₁).repeats
  rw [if_neg hdesignated] at hrest
  have hdecision : ¬ (currentLedger = task.nextAllowedExecution ∧
      decide (task.designatedKeeper = pipeline.keeperAddress) = true) := fun h =>
    hdesignated ⟨h.1, of_decide_eq_true h.2⟩
  rw [if_neg hdecision]
  cases hadd : p.add task.nextAllowedExecution 50 with
  | none =>
      -- the addition aborts, or is not reached and the visit ends in it
      unfold withinGrace at hrest
      rw [hadd] at hrest
      split at hrest
      · obtain ⟨r, -⟩ := Program.returns_perform_iff.1 hrest
        exact r.elim
      · obtain ⟨r, -⟩ := Program.returns_perform_iff.1 hrest
        exact r.elim
  | some graceEnd =>
      rw [withinGrace_of_some hadd, Program.done_bind] at hrest
      by_cases hgrace : task.nextAllowedExecution < currentLedger ∧ currentLedger ≤ graceEnd
      · have hend := le_of_inGrace hadd hgrace
        rw [decide_eq_true hgrace, if_pos rfl] at hrest
        simp only [if_pos hgrace]
        by_cases hkeeper : task.designatedKeeper = pipeline.keeperAddress
        · rw [evaluate_of_designated hgrace.1 hend hkeeper] at hrest
          obtain ⟨rfl, -⟩ := Program.returns_done_iff.1 hrest
          rw [decide_eq_true hkeeper]
          exact .nil
        · -- the monitor tests the set once more, logs and dispatches
          rw [evaluate_of_inGrace hgrace.1 hend hkeeper] at hrest
          obtain ⟨t₂, rfl, hlog, hanswered₂⟩ := returns_contains hs hrest hanswered₁
          obtain ⟨t₃, rfl, hdispatch⟩ := returns_log_bind_iff.1 hlog
          obtain ⟨s₁, hsame, hanswered₃⟩ := answered_cons_iff.1 hanswered₂
          obtain rfl : s₁ = s := hsame
          rw [decide_eq_false hkeeper]
          exact (submitsAs_of_dispatch hs hdispatch hanswered₃).repeats
      · rw [decide_eq_false hgrace, if_neg Bool.false_ne_true] at hrest
        simp only [if_neg hgrace]
        have hbranch : (if graceEnd < currentLedger then
            GraceMonitor.logMissed task currentLedger >>= fun _ =>
              pipeline.dispatch crates task .postGrace
          else pure () : EngineM Unit).Returns t₁ () := by
          rw [hadd] at hrest
          exact hrest
        by_cases hpost : graceEnd < currentLedger
        · rw [if_pos hpost] at hbranch ⊢
          obtain ⟨t₂, rfl, hdispatch⟩ := returns_log_bind_iff.1 hbranch
          obtain ⟨s₁, hsame, hanswered₂⟩ := answered_cons_iff.1 hanswered₁
          obtain rfl : s₁ = s := hsame
          exact (submitsAs_of_dispatch hs hdispatch hanswered₂).repeats
        · rw [if_neg hpost] at hbranch ⊢
          obtain ⟨rfl, -⟩ := Program.returns_done_iff.1 hbranch
          exact .nil

/-! ## The loop -/

theorem filterMap_cons_toList {α β : Type} (f : α → Option β) (a : α) (l : List α) :
    (a :: l).filterMap f = (f a).toList ++ l.filterMap f := by
  cases hfa : f a with
  | none => exact List.filterMap_cons_none hfa
  | some b => exact List.filterMap_cons_some hfa

/-- By induction on the visits: each one finds the set empty and leaves it so. -/
theorem TasksTrace.repeats {tasks : List RemoteTask} {visits : List Visit}
    (h : TasksTrace crates p (.wired pipeline) currentLedger tasks visits t)
    (hs : Answered InFlightSet.Answers t ∅ s') :
    s' = ∅ ∧ Repeats (pipeline.maxRetries.val.toNat + 1)
      ((tasks.map fun task => (task, currentLedger)).filterMap (plannedEnvelope crates p pipeline))
      (envelopes t) := by
  induction h with
  | nil => exact ⟨answered_nil_iff.1 hs, .nil⟩
  | @cons task rest visits t t' hvisit _ ih =>
      obtain ⟨s₁, hfirst, hrest⟩ := answered_append_iff.1 hs
      obtain rfl := (enters_classifyAndDispatch rfl).answered_eq hvisit hfirst
      obtain ⟨hend, hrepeats⟩ := ih hrest
      refine ⟨hend, ?_⟩
      rw [List.map_cons, filterMap_cons_toList, envelopes_append]
      exact (visit_follows_plan (Finset.notMem_empty _) hvisit hfirst).append hrepeats

theorem AdvanceTrace.repeats {query : TaskQuery} {visits : List Visit}
    (h : AdvanceTrace crates p (.wired pipeline) currentLedger query visits t)
    (hs : Answered InFlightSet.Answers t ∅ s') :
    s' = ∅ ∧ Repeats (pipeline.maxRetries.val.toNat + 1)
      ((query.found.map fun task => (task, currentLedger)).filterMap
        (plannedEnvelope crates p pipeline)) (envelopes t) := by
  cases h with
  | @tasks tasks _ t₁ t₂ hlog hvisits =>
      obtain ⟨s₁, hfirst, hrest⟩ := answered_append_iff.1 hs
      obtain rfl := (answered_work_iff ((all_logDiscovered _).of_returns hlog)).1 hfirst
      -- what is logged first submits nothing
      have hnone : envelopes t₁ = [] := by
        unfold TaskDiscovery.logDiscovered at hlog
        split at hlog
        · obtain ⟨rfl, -⟩ := Program.returns_done_iff.1 hlog
          rfl
        · cases returns_log_iff.1 hlog
          rfl
      rw [envelopes_append, hnone]
      exact hvisits.repeats hrest
  | error => exact ⟨(answered_work_iff (by simp [EngineOp.IsWork])).1 hs, .nil⟩
  | elapsed => exact ⟨(answered_work_iff (by simp [EngineOp.IsWork])).1 hs, .nil⟩

/-- A complete run of the loop leaves the set empty and submits what is planned for what it was
given, each envelope up to `maxRetries + 1` times in a row. -/
theorem submissions_follow_plan {events : List Received}
    (ht : ((TaskDiscovery.wired pipeline).run crates p events).Returns t ())
    (hs : Answered InFlightSet.Answers t ∅ s') :
    s' = ∅ ∧ Repeats (pipeline.maxRetries.val.toNat + 1) (planned crates p pipeline events)
      (envelopes t) := by
  obtain ⟨visits, htrace⟩ := returns_run_iff.1 ht
  clear ht
  induction htrace with
  | nil => exact ⟨answered_nil_iff.1 hs, .nil⟩
  | @advance seq query events visits visits' t t' hadvance _ ih =>
      obtain ⟨s₁, hfirst, hrest⟩ := answered_append_iff.1 hs
      obtain ⟨rfl, hrepeats⟩ := hadvance.repeats hfirst
      obtain ⟨hend, hrepeats'⟩ := ih hrest
      refine ⟨hend, ?_⟩
      unfold planned foundAt
      rw [List.filterMap_append, envelopes_append]
      exact hrepeats.append hrepeats'
  | @lagged skipped events visits t _ ih =>
      obtain ⟨s₁, hsame, hrest⟩ := answered_cons_iff.1 hs
      obtain rfl : s₁ = ∅ := hsame
      exact ih hrest

/-! ## The loop in the node -/

/-- What the loop was given: each query with its ledger, and what was skipped. -/
def DiscoveryOp.given : (op : DiscoveryOp) → op.Reply → Option Received
  | .queryExecutableTasks seq, query => some (.advance seq query)
  | .recv, .lagged skipped => some (.lagged (MachineInt.wrap .u64 skipped))
  | _, _ => none

/-- The operation as one of the engine. -/
def DiscoveryOp.engineEvent : (op : DiscoveryOp) → op.Reply → Option EngineEvent
  | .engine op, r => some ⟨op, r⟩
  | _, _ => none

/-- What the loop was given, in order. -/
def givenEvents (t : List (Event DiscoveryOp DiscoveryOp.Reply)) : List Received :=
  t.filterMap fun e => e.op.given e.reply

/-- The operations of the engine among those of the loop. -/
def engineEvents (t : List (Event DiscoveryOp DiscoveryOp.Reply)) : List EngineEvent :=
  t.filterMap fun e => e.op.engineEvent e.reply

theorem givenEvents_append (t₁ t₂ : List (Event DiscoveryOp DiscoveryOp.Reply)) :
    givenEvents (t₁ ++ t₂) = givenEvents t₁ ++ givenEvents t₂ := List.filterMap_append

theorem engineEvents_append (t₁ t₂ : List (Event DiscoveryOp DiscoveryOp.Reply)) :
    engineEvents (t₁ ++ t₂) = engineEvents t₁ ++ engineEvents t₂ := List.filterMap_append

/-- Engine code is given nothing, and its operations are those of the engine. -/
theorem events_of_inDiscovery {α : Type} {x : EngineM α} {a : α}
    {t : List (Event DiscoveryOp DiscoveryOp.Reply)} (h : x.inDiscovery.Returns t a) :
    x.Returns (engineEvents t) a ∧ givenEvents t = [] := by
  obtain ⟨te, hreturns, hlifts⟩ := Program.returns_of_embed h
  have hengine : engineEvents t = te.filterMap some :=
    Program.filterMap_of_lifts hlifts fun op r => rfl
  have hgiven : givenEvents t = te.filterMap fun _ => none :=
    Program.filterMap_of_lifts hlifts fun op r => rfl
  rw [hengine, hgiven, List.filterMap_some]
  exact ⟨hreturns, List.filterMap_eq_nil_iff.2 fun _ _ => rfl⟩

/-- Engine code never receives from the channel. -/
theorem all_inDiscovery {α : Type} (x : EngineM α) :
    x.inDiscovery.All fun op => op ≠ DiscoveryOp.recv :=
  (Program.all_true x).embed fun _ _ heq => nomatch heq

variable {discovery : TaskDiscovery} {n : Nat}

/-- When the loop receives, what it has done is a complete run for what it was given. By induction
on the iterations. -/
theorem returns_of_iterations {t : List (Event DiscoveryOp DiscoveryOp.Reply)}
    {next : Receipt LedgerEvent → DiscoveryM Unit}
    (h : (discovery.iterations crates p n).Reaches t (.perform .recv next)) :
    (discovery.run crates p (givenEvents t)).Returns (engineEvents t) () := by
  induction n generalizing t with
  | zero => cases h
  | succ n ih =>
      rcases Program.reaches_perform_iff.1 h with ⟨rfl, -⟩ | ⟨receipt, t₁, rfl, h₁⟩
      · exact .done ()
      cases receipt with
      | value event =>
          obtain ⟨seq⟩ := event
          obtain ⟨query, t₂, rfl, h₂⟩ := Program.reaches_perform_of_ne h₁ (by simp)
          obtain ⟨t₃, t₄, u, rfl, hadvance, hrest⟩ :=
            Program.reaches_bind_of_all (all_inDiscovery _) (fun hne => hne rfl) h₂
          obtain ⟨hreturns, hnone⟩ := events_of_inDiscovery hadvance
          show (discovery.run crates p (.advance seq query :: givenEvents (t₃ ++ t₄))).Returns
            (engineEvents (t₃ ++ t₄)) ()
          rw [givenEvents_append, engineEvents_append, hnone]
          unfold TaskDiscovery.run
          exact Program.returns_bind_iff.2 ⟨_, _, (), rfl, hreturns, ih hrest⟩
      | lagged skipped =>
          obtain ⟨t₃, t₄, u, rfl, hlog, hrest⟩ :=
            Program.reaches_bind_of_all (all_inDiscovery _) (fun hne => hne rfl) h₁
          obtain ⟨hreturns, hnone⟩ := events_of_inDiscovery hlog
          show (discovery.run crates p (.lagged _ :: givenEvents (t₃ ++ t₄))).Returns
            (engineEvents (t₃ ++ t₄)) ()
          rw [givenEvents_append, engineEvents_append, hnone]
          unfold TaskDiscovery.run
          exact Program.returns_bind_iff.2 ⟨_, _, (), rfl, hreturns, ih hrest⟩
      | closed =>
          obtain ⟨r, t₂, -, h₂⟩ := Program.reaches_perform_of_ne h₁ (by simp)
          cases h₂

/-- The action as one of the loop. -/
def discoveryEvent : NodeAction → Option (Event DiscoveryOp DiscoveryOp.Reply)
  | ⟨_, .discovery op, r⟩ => some ⟨op, r⟩
  | _ => none

/-- What the loop has done. -/
def discoveryEvents (h : List NodeAction) : List (Event DiscoveryOp DiscoveryOp.Reply) :=
  h.filterMap discoveryEvent

variable {χ : Type} {node : Node χ} {h : List NodeAction} {c c' : NodePool χ}

theorem owns_of_mem (hrun : node.Run n h c) : ∀ e ∈ h, e.party.Owns e.op := by
  intro e he
  obtain ⟨pre, post, hsplit⟩ := List.append_of_mem he
  obtain ⟨c₁, c₂, hrun₁, hstep⟩ := hrun.step_of_split hsplit
  exact (owns_of_step hrun₁ hstep).1

/-- The operations of the loop are performed by its task. -/
theorem discoveryEvents_eq_trace (hrun : node.Run n h c) :
    discoveryEvents h = (Pool.trace .discovery h).filterMap fun e =>
      discoveryEvent ⟨.discovery, e.op, e.reply⟩ := by
  unfold discoveryEvents Pool.trace Pool.ownActions
  rw [List.filterMap_map, List.filterMap_filter]
  apply List.filterMap_congr
  intro e he
  have howns := owns_of_mem hrun e he
  obtain ⟨i, op, r⟩ := e
  cases i with
  | discovery => rfl
  | poller =>
      cases op with
      | poller op => rfl
      | _ => exact howns.elim
  | health k =>
      cases op with
      | health op => rfl
      | _ => exact howns.elim

/-- When the loop receives, what it has done is a complete run for what it was given. -/
theorem returns_of_recv (hrun : node.Run n h c) {i : NodeTask} {receipt : Receipt LedgerEvent}
    (hstep : Pool.Step node.Answers c ⟨i, .discovery .recv, receipt⟩ c') :
    ((TaskDiscovery.wired node.pipeline).run node.crates node.profile
      (givenEvents (discoveryEvents h))).Returns (engineEvents (discoveryEvents h)) () := by
  have howns := (owns_of_step hrun hstep).1
  cases i with
  | poller => exact howns.elim
  | health k => exact howns.elim
  | discovery =>
      cases hstep with
      | perform hprogram hanswers =>
          have hreaches := hrun.reaches .discovery
          rw [hprogram] at hreaches
          obtain ⟨t, y, hy, hreaches', hlifts⟩ := Program.reaches_of_embed hreaches
          have ht : discoveryEvents h = t := by
            rw [discoveryEvents_eq_trace hrun]
            exact (Program.filterMap_of_lifts (ψ := some) hlifts fun op r => rfl).trans
              List.filterMap_some
          rw [ht]
          -- what is left of the task begins with the same operation
          cases y with
          | done a => cases hy
          | perform op next =>
              injection hy with hop hnext
              cases hop
              obtain ⟨r, t', rfl, hiterations⟩ := Program.reaches_perform_of_ne hreaches'
                fun heq => nomatch heq
              -- the subscription is not an operation of the engine
              show ((TaskDiscovery.wired node.pipeline).run node.crates node.profile
                (givenEvents t')).Returns (engineEvents t') ()
              exact returns_of_iterations hiterations

/-- The in-flight set answers the operations of the engine one after the other. -/
theorem answered_of_run (hrun : node.Run n h c) :
    Answered InFlightSet.Answers (engineEvents (discoveryEvents h)) ∅ c.shared.inFlight := by
  induction hrun with
  | start => exact .nil ∅
  | @step h c c' e hrun hstep ih =>
      have hanswer := (owns_of_step hrun hstep).2
      have hset := (Node.shared_after hanswer).2.2
      obtain ⟨i, op, r⟩ := e
      have hsplit : discoveryEvents (h ++ [⟨i, op, r⟩]) =
          discoveryEvents h ++ discoveryEvents [⟨i, op, r⟩] := List.filterMap_append
      rw [hsplit, engineEvents_append]
      refine answered_append_iff.2 ⟨_, ih, ?_⟩
      cases op with
      | poller op => exact answered_nil_iff.2 hset
      | health op => exact answered_nil_iff.2 hset
      | discovery op =>
          cases op with
          | engine op => exact .cons hanswer.1 (.nil _)
          | _ => exact answered_nil_iff.2 hset

/-- In every run of the node, when the loop turns to the next ledger it has submitted what is
planned for what it was given so far. -/
theorem node_follows_plan (hrun : node.Run n h c) {i : NodeTask} {receipt : Receipt LedgerEvent}
    (hstep : Pool.Step node.Answers c ⟨i, .discovery .recv, receipt⟩ c') :
    Repeats (node.pipeline.maxRetries.val.toNat + 1)
      (planned node.crates node.profile node.pipeline (givenEvents (discoveryEvents h)))
      (envelopes (engineEvents (discoveryEvents h))) :=
  (submissions_follow_plan (returns_of_recv hrun hstep) (answered_of_run hrun)).2

/-- The endpoint refuses the transaction for good, and the loop turns to the ledger 101. -/
theorem node_follows_plan_sample : ∃ h c c', sampleNode.Run 2 h c ∧
    Pool.Step sampleNode.Answers c ⟨.discovery, .discovery .recv, .value (.advance 101)⟩ c' ∧
    givenEvents (discoveryEvents h) = [.advance 100 (.tasks [sampleRemoteTask 100])] ∧
    Repeats 6 (planned sampleCrates .release (samplePipeline 3)
      [.advance 100 (.tasks [sampleRemoteTask 100])]) (envelopes (engineEvents (discoveryEvents h))) := by
  obtain ⟨⟨shared, program⟩, hrun, hshared, hprogram, hpoller⟩ := run_sampleDispatch
  obtain rfl : shared = _ := hshared
  obtain ⟨next, hnext, hlog⟩ := executeWithRetry_eq_perform sampleCrates (samplePipeline 3)
    (sampleRemoteTask 100) .designated
  rw [hnext] at hprogram
  -- the poller finds the next ledger
  have h₁ := hrun.perform .poller (.poller (.sleep _)) () hpoller rfl
  have h₂ := h₁.perform .poller (.poller .postGetLatestLedger) (.json none ⟨some 101⟩) rfl rfl
  have h₃ := h₂.perform .poller (.poller .loadLastKnown) 100 rfl ⟨rfl, rfl⟩
  have h₄ := h₃.perform .poller (.poller (.storeLastKnown 101)) () rfl rfl
  have h₅ := h₄.perform .poller (.poller (.broadcast (.advance 101))) () rfl rfl
  -- the loop submits and goes on
  have h₆ := h₅.perform .discovery (.discovery (.engine (.postSendTransaction _))) (.json none ⟨none⟩)
    hprogram ⟨rfl, rfl⟩
  have h₇ := h₆.perform .discovery (.discovery (.engine (.log _))) ()
    (congrArg sampleRest hlog) ⟨rfl, rfl⟩
  have h₈ := h₇.perform (s := ⟨101, 0, ∅, ⟨true, [.advance 101], 0⟩⟩) .discovery
    (.discovery (.engine (.removeInFlight _))) () rfl ⟨(Finset.erase_singleton _).symm, rfl⟩
  obtain ⟨c', hstep⟩ := h₈.exists_step .discovery (.discovery .recv) (.value (.advance 101)) rfl
    ⟨_, rfl, rfl⟩
  exact ⟨_, _, c', h₈, hstep, rfl, node_follows_plan h₈ hstep⟩

end ChronosKeeper.Engine
