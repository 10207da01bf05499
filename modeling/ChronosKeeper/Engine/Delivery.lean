import ChronosKeeper.Engine.Node

/-!
# From the poller to the discovery loop

The poller alone writes the counter of the last known ledger and sends to the broadcast channel,
and the discovery loop alone receives from it. In every run of the node the counter never
decreases, every ledger that is broadcast is newer than those before it, and the counter is never
behind them (`counter_of_run`). The history says what has happened to the channel
(`follows_of_run`), so the ledgers that the loop is given are accounted for
(`ledgers_are_delivered`).
-/

set_option autoImplicit false

namespace ChronosKeeper.Engine

open ChronosKeeper.Foundations

open Program (request)

/-! ## The channel in a history -/

/-- What an action does to the channel. -/
def channelEvent : NodeAction → Option (ChannelEvent LedgerEvent)
  | ⟨_, .poller (.broadcast event), _⟩ => some (.send event)
  | ⟨_, .discovery .subscribe, _⟩ => some .subscribe
  | ⟨_, .discovery .recv, receipt⟩ => some (.receive receipt)
  | _ => none

def channelEvents (h : List NodeAction) : List (ChannelEvent LedgerEvent) :=
  h.filterMap channelEvent

theorem channelEvents_concat_some (h : List NodeAction) {a : NodeAction}
    {e : ChannelEvent LedgerEvent} (ha : channelEvent a = some e) :
    channelEvents (h ++ [a]) = channelEvents h ++ [e] := by
  unfold channelEvents
  rw [List.filterMap_append, List.filterMap_cons_some ha, List.filterMap_nil]

theorem channelEvents_concat_none (h : List NodeAction) {a : NodeAction}
    (ha : channelEvent a = none) : channelEvents (h ++ [a]) = channelEvents h := by
  unfold channelEvents
  rw [List.filterMap_append, List.filterMap_cons_none ha, List.filterMap_nil, List.append_nil]

variable {χ : Type} {node : Node χ} {n : Nat} {h : List NodeAction} {c c' : NodePool χ}

/-- An operation does to the channel what the history says. -/
theorem follows_of_answers {s s' : NodeState χ} {i : NodeTask} {op : NodeOp} {r : op.Reply}
    (hfollows : node.channel.Follows (channelEvents h) s.channel)
    (hanswer : node.Answers op s r s') :
    node.channel.Follows (channelEvents (h ++ [⟨i, op, r⟩])) s'.channel := by
  cases op with
  | poller op =>
      cases op with
      | broadcast event =>
          have hs' : s' = { s with channel := node.channel.send event s.channel } := hanswer
          rw [channelEvents_concat_some (e := .send event) h rfl, hs']
          exact hfollows.send event
      | loadLastKnown =>
          obtain ⟨-, rfl⟩ := hanswer
          rw [channelEvents_concat_none h rfl]
          exact hfollows
      | _ =>
          have hs' : s' = _ := hanswer
          rw [channelEvents_concat_none h rfl, hs']
          exact hfollows
  | discovery op =>
      cases op with
      | subscribe =>
          have hs' : s' = { s with channel := node.channel.subscribe s.channel } := hanswer
          rw [channelEvents_concat_some (e := .subscribe) h rfl, hs']
          exact hfollows.subscribe
      | recv =>
          obtain ⟨channel, hreceive, rfl⟩ := hanswer
          rw [channelEvents_concat_some (e := .receive r) h rfl]
          exact hfollows.receive hreceive
      | queryExecutableTasks seq =>
          obtain ⟨-, rfl⟩ := hanswer
          rw [channelEvents_concat_none h rfl]
          exact hfollows
      | engine op =>
          rw [channelEvents_concat_none h rfl, hanswer.2]
          exact hfollows
      | logChannelClosed =>
          have hs' : s' = s := hanswer
          rw [channelEvents_concat_none h rfl, hs']
          exact hfollows
  | health op =>
      cases op with
      | respond response =>
          have hs' : s' = s := hanswer
          rw [channelEvents_concat_none h rfl, hs']
          exact hfollows
      | _ =>
          obtain ⟨-, rfl⟩ := hanswer
          rw [channelEvents_concat_none h rfl]
          exact hfollows

theorem follows_of_run (hrun : node.Run n h c) :
    node.channel.Follows (channelEvents h) c.shared.channel := by
  induction hrun with
  | start => exact .opened
  | step hrun hstep ih =>
      cases hstep with
      | perform hprogram hanswers => exact follows_of_answers ih hanswers

/-! ## The view of the poller -/

def LedgerEvent.ledger : LedgerEvent → Int
  | .advance seq => seq.val

/-- The counter and the ledgers that were broadcast. -/
structure PollerView where
  lastKnown : U32
  sent : List Int

/-- No ledger that was broadcast is newer than the counter. -/
def PollerView.Synced (v : PollerView) : Prop := ∀ ledger ∈ v.sent, ledger ≤ v.lastKnown.val

/-- The answers of the shared state as the poller sees them. -/
def PollerView.Answers : (op : PollerOp) → PollerView → op.Reply → PollerView → Prop
  | .loadLastKnown, v, last, v' => last = v.lastKnown ∧ v' = v
  | .storeLastKnown seq, v, _, v' => v' = { v with lastKnown := seq }
  | .broadcast event, v, _, v' => v' = { v with sent := v.sent ++ [event.ledger] }
  | _, v, _, v' => v' = v

/-- What the operations of the poller meet. -/
def PollerView.Meets : PollerOp → PollerView → Prop
  | .storeLastKnown seq, v => v.Synced ∧ v.lastKnown < seq
  | .broadcast event, v => v.lastKnown.val = event.ledger ∧ ∀ ledger ∈ v.sent, ledger < event.ledger
  | _, _ => True

/-- The operation is neither a load, a store nor a broadcast. -/
def PollerOp.IsQuiet : PollerOp → Prop
  | .loadLastKnown => False
  | .storeLastKnown _ => False
  | .broadcast _ => False
  | _ => True

variable {p : Profile} {poller : LedgerPoller} {v : PollerView}

theorem guarantees_quiet {α : Type} {x : PollerM α} (hx : x.All PollerOp.IsQuiet)
    (hv : v.Synced) :
    x.Guarantees PollerView.Answers PollerView.Meets (fun _ v => v.Synced) v := by
  have hquiet : x.Guarantees PollerView.Answers PollerView.Meets (fun _ v' => v' = v) v := by
    apply Program.Guarantees.of_all hx
    · intro op hop
      cases op with
      | storeLastKnown seq => exact hop.elim
      | broadcast event => exact hop.elim
      | _ => trivial
    · intro op r v' hop hanswer
      cases op with
      | loadLastKnown => exact hop.elim
      | storeLastKnown seq => exact hop.elim
      | broadcast event => exact hop.elim
      | _ => exact hanswer
  apply hquiet.imp fun _ _ => id
  rintro _ _ rfl
  exact hv

theorem guarantees_advanceTo (seq : U32) (hv : v.Synced) :
    (LedgerPoller.advanceTo seq).Guarantees PollerView.Answers PollerView.Meets
      (fun _ v => v.Synced) v := by
  refine ⟨trivial, ?_⟩
  rintro last v₁ ⟨rfl, rfl⟩
  show (if v₁.lastKnown < seq then _ else _ : PollerM Unit).Guarantees _ _ _ _
  by_cases hlt : v₁.lastKnown < seq
  · rw [if_pos hlt]
    refine ⟨⟨hv, hlt⟩, fun _ v₂ hstore => ?_⟩
    obtain rfl : v₂ = { v₁ with lastKnown := seq } := hstore
    -- the broadcast follows the store: what was broadcast before is older
    have hnewer : ∀ ledger ∈ v₁.sent, ledger < seq.val :=
      fun ledger hmem => lt_of_le_of_lt (hv ledger hmem) (MachineInt.lt_iff.1 hlt)
    refine ⟨⟨rfl, hnewer⟩, fun _ v₃ hsend => ?_⟩
    obtain rfl : v₃ = { v₁ with lastKnown := seq, sent := v₁.sent ++ [seq.val] } := hsend
    refine ⟨trivial, fun _ v₄ hlog => ?_⟩
    obtain rfl : v₄ = _ := hlog
    intro ledger hmem
    rcases List.mem_append.1 hmem with hold | hnew
    · exact (hnewer ledger hold).le
    · exact (List.mem_singleton.1 hnew).le
  · rw [if_neg hlt]
    exact hv

theorem all_resetErrors_isQuiet (locals : LedgerPoller.Locals) (seq : U32) :
    (poller.resetErrors locals seq).All PollerOp.IsQuiet := by
  unfold LedgerPoller.resetErrors
  split
  · exact ⟨trivial, fun _ => trivial⟩
  · trivial

theorem all_getLatestLedger_isQuiet : RpcClient.getLatestLedger.All PollerOp.IsQuiet := by
  unfold RpcClient.getLatestLedger
  apply Program.All.bind (Program.All.request trivial)
  intro reply
  split
  · trivial
  · trivial
  · exact ⟨trivial, fun _ => trivial⟩

theorem all_arith_isQuiet {α : Type} (o : Option α) :
    (PollerM.arith o).All PollerOp.IsQuiet := by
  cases o with
  | some a => trivial
  | none => exact ⟨trivial, fun r => r.elim⟩

theorem all_onError_isQuiet (locals : LedgerPoller.Locals) (e : TransientError) :
    (poller.onError p locals e).All PollerOp.IsQuiet := by
  unfold LedgerPoller.onError
  apply (all_arith_isQuiet _).bind
  intro consecutiveErrors
  refine ⟨trivial, fun _ => ⟨trivial, fun _ => ?_⟩⟩
  exact (all_arith_isQuiet _).bind fun _ => trivial

theorem guarantees_poll (locals : LedgerPoller.Locals) (hv : v.Synced) :
    (poller.poll p locals).Guarantees PollerView.Answers PollerView.Meets
      (fun _ v => v.Synced) v := by
  refine ⟨trivial, fun _ v₁ hsleep => ?_⟩
  obtain rfl : v₁ = v := hsleep
  show (RpcClient.getLatestLedger >>= _).Guarantees _ _ _ _
  apply (guarantees_quiet all_getLatestLedger_isQuiet hv).bind
  intro result v₂ hv₂
  cases result with
  | ok seq =>
      show (poller.resetErrors locals seq >>= _).Guarantees _ _ _ _
      apply (guarantees_quiet (all_resetErrors_isQuiet locals seq) hv₂).bind
      intro locals' v₃ hv₃
      apply (guarantees_advanceTo seq hv₃).bind
      exact fun _ _ => id
  | error e => exact guarantees_quiet (all_onError_isQuiet locals e) hv₂

/-- By induction on the iterations. -/
theorem guarantees_pollerIterations (locals : LedgerPoller.Locals) (hv : v.Synced) :
    (poller.iterations p n locals).Guarantees PollerView.Answers PollerView.Meets
      (fun _ v => v.Synced) v := by
  induction n generalizing locals v with
  | zero => exact hv
  | succ n ih =>
      unfold LedgerPoller.iterations
      apply (guarantees_poll locals hv).bind
      exact fun locals' v' hv' => ih locals' hv'

/-! ## The poller among the other tasks -/

/-- The ledgers that were broadcast, in order. -/
def broadcastLedgers (h : List NodeAction) : List Int :=
  (sends (channelEvents h)).map LedgerEvent.ledger

theorem broadcastLedgers_concat (h : List NodeAction) (a : NodeAction) :
    broadcastLedgers (h ++ [a]) = broadcastLedgers h ++ broadcastLedgers [a] := by
  unfold broadcastLedgers channelEvents sends
  rw [List.filterMap_append, List.filterMap_append, List.map_append]

/-- The view of the poller on a state, with the history that leads to it. -/
def pollerView (h : List NodeAction) (s : NodeState χ) : PollerView :=
  ⟨s.lastKnown, broadcastLedgers h⟩

/-- The relation of the poller, as one on the operations of the node. -/
def PollerAnswers : (op : NodeOp) → PollerView → op.Reply → PollerView → Prop
  | .poller op => PollerView.Answers op
  | _ => fun _ _ _ => True

def PollerMeets : NodeOp → PollerView → Prop
  | .poller op => PollerView.Meets op
  | _ => fun _ => True

theorem guarantees_poller :
    ((node.start n).program .poller).Guarantees PollerAnswers PollerMeets
      (fun _ v => v.Synced) (pollerView [] (node.start n).shared) := by
  have hstart : (pollerView [] (node.start n).shared).Synced :=
    fun _ hmem => absurd hmem List.not_mem_nil
  have hpoller : (node.poller.run node.profile n).Guarantees PollerView.Answers PollerView.Meets
      (fun _ v => v.Synced) (pollerView [] (node.start n).shared) :=
    guarantees_pollerIterations _ hstart
  have hnode : ((node.poller.run node.profile n).embed NodeOp.poller fun _ r => r :
      NodeM LedgerPoller.Locals).Guarantees PollerAnswers PollerMeets
      (fun _ v => v.Synced) (pollerView [] (node.start n).shared) := by
    refine Program.Guarantees.embed_view (fun v => v) ?_ ?_ hpoller
    · exact fun _ _ _ _ hanswer => hanswer
    · exact fun _ _ hmeets => hmeets
  exact hnode.bind fun _ _ hsynced => hsynced

/-- The operations of the poller act on its view as it expects. -/
theorem pollerView_own (h : List NodeAction) (s : NodeState χ) (op : NodeOp) (r : op.Reply)
    (s' : NodeState χ) (howns : NodeTask.poller.Owns op) (hanswer : node.Answers op s r s') :
    PollerAnswers op (pollerView h s) r (pollerView (h ++ [⟨.poller, op, r⟩]) s') := by
  cases op with
  | discovery op => exact howns.elim
  | health op => exact howns.elim
  | poller op =>
      unfold pollerView
      rw [broadcastLedgers_concat]
      cases op with
      | loadLastKnown =>
          obtain ⟨rfl, rfl⟩ := hanswer
          exact ⟨rfl, congrArg _ (List.append_nil _)⟩
      | broadcast event =>
          have hs' : s' = { s with channel := node.channel.send event s.channel } := hanswer
          rw [hs']
          rfl
      | _ =>
          have hs' : s' = _ := hanswer
          rw [hs']
          exact congrArg (PollerView.mk _) (List.append_nil _)

/-- The other tasks neither store the counter nor broadcast. -/
theorem pollerView_other (h : List NodeAction) (s : NodeState χ) (j : NodeTask) (op : NodeOp)
    (r : op.Reply) (s' : NodeState χ) (hj : j ≠ .poller) (howns : j.Owns op)
    (hanswer : node.Answers op s r s') :
    pollerView (h ++ [⟨j, op, r⟩]) s' = pollerView h s := by
  unfold pollerView
  rw [broadcastLedgers_concat]
  rw [(Node.shared_after hanswer).1]
  cases op with
  | poller op =>
      cases j with
      | poller => exact absurd rfl hj
      | discovery => exact howns.elim
      | health request => exact howns.elim
  | discovery op =>
      cases op with
      | _ => exact congrArg (PollerView.mk _) (List.append_nil _)
  | health op => exact congrArg (PollerView.mk _) (List.append_nil _)

/-! ## The counter -/

/-- Every operation of the poller meets its condition. -/
theorem poller_meets (hrun : node.Run n h c) {op : PollerOp} {r : op.Reply}
    (hstep : Pool.Step node.Answers c ⟨.poller, .poller op, r⟩ c') :
    PollerView.Meets op (pollerView h c.shared) :=
  (hrun.meets pollerView (node.owns n) pollerView_own pollerView_other guarantees_poller hstep).2

/-- The task that performs an operation owns it. -/
theorem owns_of_step (hrun : node.Run n h c) {i : NodeTask} {op : NodeOp} {r : op.Reply}
    (hstep : Pool.Step node.Answers c ⟨i, op, r⟩ c') :
    i.Owns op ∧ node.Answers op c.shared r c'.shared := by
  cases hstep with
  | perform hprogram hanswers =>
      have hall := hrun.all_program (node.owns n) i
      rw [hprogram] at hall
      exact ⟨hall.1, hanswers⟩

/-- The ledgers that were broadcast, and the counter. -/
structure CounterInvariant (v : PollerView) : Prop where
  increasing : v.sent.Pairwise (· < ·)
  synced : v.Synced

/-- What a step does to the counter and the ledgers that were broadcast: the poller goes on by
one of its operations, or nothing changes. -/
theorem pollerView_step (hrun : node.Run n h c) {e : NodeAction}
    (hstep : Pool.Step node.Answers c e c') :
    (∃ op r, e = ⟨.poller, .poller op, r⟩ ∧ PollerView.Meets op (pollerView h c.shared) ∧
      PollerView.Answers op (pollerView h c.shared) r (pollerView (h ++ [e]) c'.shared)) ∨
    pollerView (h ++ [e]) c'.shared = pollerView h c.shared := by
  obtain ⟨i, op, r⟩ := e
  obtain ⟨howns, hanswer⟩ := owns_of_step hrun hstep
  by_cases hi : i = .poller
  · subst hi
    cases op with
    | poller op =>
        exact Or.inl ⟨op, r, rfl, poller_meets hrun hstep, pollerView_own h _ _ _ _ howns hanswer⟩
    | discovery op => exact howns.elim
    | health op => exact howns.elim
  · exact Or.inr (pollerView_other h _ _ _ _ _ hi howns hanswer)

/-- One operation of the poller. -/
theorem CounterInvariant.step {v v' : PollerView} {op : PollerOp} {r : op.Reply}
    (hinv : CounterInvariant v) (hmeets : PollerView.Meets op v)
    (hanswer : PollerView.Answers op v r v') : CounterInvariant v' := by
  cases op with
  | loadLastKnown =>
      obtain ⟨-, rfl⟩ := hanswer
      exact hinv
  | storeLastKnown seq =>
      obtain rfl : v' = { v with lastKnown := seq } := hanswer
      refine ⟨hinv.increasing, fun ledger hmem => ?_⟩
      exact (hinv.synced ledger hmem).trans (MachineInt.lt_iff.1 hmeets.2).le
  | broadcast event =>
      obtain rfl : v' = { v with sent := v.sent ++ [event.ledger] } := hanswer
      obtain ⟨hledger, hnewer⟩ := hmeets
      constructor
      · rw [List.pairwise_append]
        refine ⟨hinv.increasing, List.pairwise_singleton _ _, fun a ha b hb => ?_⟩
        obtain rfl := List.mem_singleton.1 hb
        exact hnewer a ha
      · intro ledger hmem
        rcases List.mem_append.1 hmem with hold | hnew
        · exact hinv.synced ledger hold
        · obtain rfl := List.mem_singleton.1 hnew
          exact hledger.ge
  | _ =>
      have hv' : v' = v := hanswer
      rw [hv']
      exact hinv

theorem counter_of_run (hrun : node.Run n h c) : CounterInvariant (pollerView h c.shared) := by
  induction hrun with
  | start => exact ⟨List.Pairwise.nil, fun _ hmem => absurd hmem List.not_mem_nil⟩
  | step hrun hstep ih =>
      rcases pollerView_step hrun hstep with ⟨op, r, -, hmeets, hanswer⟩ | hsame
      · exact ih.step hmeets hanswer
      · rw [hsame]
        exact ih

/-- The counter never decreases. -/
theorem lastKnown_le_of_step (hrun : node.Run n h c) {e : NodeAction}
    (hstep : Pool.Step node.Answers c e c') : c.shared.lastKnown ≤ c'.shared.lastKnown := by
  have hrefl : c.shared.lastKnown ≤ c.shared.lastKnown := MachineInt.le_iff.2 (le_refl _)
  rcases pollerView_step hrun hstep with ⟨op, r, -, hmeets, hanswer⟩ | hsame
  · cases op with
    | loadLastKnown =>
        have hsame : c'.shared.lastKnown = c.shared.lastKnown :=
          congrArg PollerView.lastKnown hanswer.2
        rw [hsame]
        exact hrefl
    | storeLastKnown seq =>
        have hsame : c'.shared.lastKnown = seq := congrArg PollerView.lastKnown hanswer
        rw [hsame]
        exact MachineInt.le_iff.2 (MachineInt.lt_iff.1 hmeets.2).le
    | _ =>
        have hsame : c'.shared.lastKnown = c.shared.lastKnown :=
          congrArg PollerView.lastKnown hanswer
        rw [hsame]
        exact hrefl
  · have hsame' : c'.shared.lastKnown = c.shared.lastKnown := congrArg PollerView.lastKnown hsame
    rw [hsame']
    exact hrefl

/-! ## What the loop is given -/

/-- The ledgers that the loop was given, in order. -/
def givenLedgers (h : List NodeAction) : List Int :=
  (delivered (receipts (channelEvents h))).map LedgerEvent.ledger

/-- Where the ledgers have gone that were broadcast since the loop has subscribed. -/
structure Delivers (node : Node χ) (h : List NodeAction) (s : NodeState χ) : Prop where
  /-- Each was given to the loop, reported as skipped, or is still in the channel. -/
  accounts : node.channel.Accounts (channelEvents h) s.channel
  /-- The loop is given newer and newer ledgers. -/
  increasing : (givenLedgers h).Pairwise (· < ·)
  broadcast : (givenLedgers h).Sublist (broadcastLedgers h)
  known : ∀ ledger ∈ givenLedgers h, ledger ≤ s.lastKnown.val
  /-- Once it has caught up, the loop was given the latest one. -/
  caughtUp : node.channel.retained s.channel = [] →
    (givenLedgers h).getLast? = ((sentSince (channelEvents h)).map LedgerEvent.ledger).getLast?

theorem ledgers_are_delivered (hrun : node.Run n h c)
    (hsubscribed : .subscribe ∈ channelEvents h) : Delivers node h c.shared := by
  have hfollows := follows_of_run hrun
  have hcounter := counter_of_run hrun
  have haccounts := hfollows.accounts (hfollows.subscribed hsubscribed)
  have hgiven : (delivered (receipts (channelEvents h))).Sublist (sentSince (channelEvents h)) :=
    (List.sublist_append_left ..).trans haccounts.inOrder
  have hbroadcast : (givenLedgers h).Sublist (broadcastLedgers h) :=
    (hgiven.trans (sentSince_sublist _)).map _
  refine ⟨haccounts, hcounter.increasing.sublist hbroadcast, hbroadcast, ?_, ?_⟩
  · exact fun ledger hmem => hcounter.synced ledger (hbroadcast.mem hmem)
  · intro hretained
    have hlatest := haccounts.latest
    rw [hretained, List.append_nil] at hlatest
    unfold givenLedgers
    rw [List.getLast?_map, List.getLast?_map, hlatest]

/-- The sample node, with room for a single ledger in the channel. -/
def narrowNode : Node (BroadcastBuffer LedgerEvent) :=
  { sampleNode with channel := BroadcastBuffer.channel 1 (Nat.succ_pos 0) }

/-- The second ledger takes the place of the first before the loop comes to the channel. -/
def laggingHistory : List NodeAction :=
  [⟨.discovery, .discovery .subscribe, ()⟩,
    ⟨.poller, .poller (.sleep narrowNode.poller.pollInterval), ()⟩,
    ⟨.poller, .poller .postGetLatestLedger, .json none ⟨some 100⟩⟩,
    ⟨.poller, .poller .loadLastKnown, 0⟩,
    ⟨.poller, .poller (.storeLastKnown 100), ()⟩,
    ⟨.poller, .poller (.broadcast (.advance 100)), ()⟩,
    ⟨.poller, .poller (.log (.ledgerAdvance 100)), ()⟩,
    ⟨.poller, .poller (.sleep narrowNode.poller.pollInterval), ()⟩,
    ⟨.poller, .poller .postGetLatestLedger, .json none ⟨some 101⟩⟩,
    ⟨.poller, .poller .loadLastKnown, 100⟩,
    ⟨.poller, .poller (.storeLastKnown 101), ()⟩,
    ⟨.poller, .poller (.broadcast (.advance 101)), ()⟩,
    ⟨.discovery, .discovery .recv, .lagged 1⟩,
    ⟨.discovery, .discovery (.engine (.log (.channelLagged 1))), ()⟩,
    ⟨.discovery, .discovery .recv, .value (.advance 101)⟩]

theorem run_lagging : ∃ c, narrowNode.Run 2 laggingHistory c := by
  have h₀ : narrowNode.Run 2 [] _ := .start
  have h₁ := h₀.perform .discovery (.discovery .subscribe) () rfl rfl
  have h₂ := h₁.perform .poller (.poller (.sleep _)) () rfl rfl
  have h₃ := h₂.perform .poller (.poller .postGetLatestLedger) (.json none ⟨some 100⟩) rfl rfl
  have h₄ := h₃.perform .poller (.poller .loadLastKnown) 0 rfl ⟨rfl, rfl⟩
  have h₅ := h₄.perform .poller (.poller (.storeLastKnown 100)) () rfl rfl
  have h₆ := h₅.perform .poller (.poller (.broadcast (.advance 100))) () rfl rfl
  have h₇ := h₆.perform .poller (.poller (.log (.ledgerAdvance 100))) () rfl rfl
  have h₈ := h₇.perform .poller (.poller (.sleep _)) () rfl rfl
  have h₉ := h₈.perform .poller (.poller .postGetLatestLedger) (.json none ⟨some 101⟩) rfl rfl
  have h₁₀ := h₉.perform .poller (.poller .loadLastKnown) 100 rfl ⟨rfl, rfl⟩
  have h₁₁ := h₁₀.perform .poller (.poller (.storeLastKnown 101)) () rfl rfl
  have h₁₂ := h₁₁.perform .poller (.poller (.broadcast (.advance 101))) () rfl rfl
  have h₁₃ := h₁₂.perform .discovery (.discovery .recv) (.lagged 1) rfl ⟨_, rfl, rfl⟩
  have h₁₄ := h₁₃.perform .discovery (.discovery (.engine (.log (.channelLagged 1)))) () rfl
    ⟨rfl, rfl⟩
  have h₁₅ := h₁₄.perform .discovery (.discovery .recv) (.value (.advance 101)) rfl ⟨_, rfl, rfl⟩
  exact ⟨_, h₁₅⟩

/-- Of two ledgers the loop is given the second, after a report that it has missed one. -/
theorem ledgers_are_delivered_sample : ∃ c, narrowNode.Run 2 laggingHistory c ∧
    broadcastLedgers laggingHistory = [100, 101] ∧ givenLedgers laggingHistory = [101] ∧
    receipts (channelEvents laggingHistory) = [.lagged 1, .value (.advance 101)] ∧
    Delivers narrowNode laggingHistory c.shared := by
  obtain ⟨c, hrun⟩ := run_lagging
  exact ⟨c, hrun, rfl, rfl, rfl, ledgers_are_delivered hrun (List.mem_cons_self ..)⟩

end ChronosKeeper.Engine
