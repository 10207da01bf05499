import ChronosKeeper.Engine.Poller
import ChronosKeeper.Engine.Backoff
import ChronosKeeper.Foundations.Records
import ChronosKeeper.Foundations.Returns

/-!
# What the poller broadcasts

The poller against an endpoint that answers its requests by a list of replies. `observed` is the
ledger that a reply reports, `records` says which ledgers are advances, and `schedule` when the
poller waits and for how long. Each iteration does what these say (`run_poll_success`,
`run_poll_failure`), so a run broadcasts exactly the records of the reported ledgers, and waits by
the schedule (`poller_trace`).
-/

set_option autoImplicit false

namespace ChronosKeeper.Engine

open ChronosKeeper.Foundations

/-! ## Replies -/

/-- The ledger that a reply reports; none where the request has failed. -/
def observed : HttpReply LatestLedgerResult → Option Int
  | .json none ⟨some seq⟩ => some seq.val
  | _ => none

/-- The ledgers reported, in order. -/
def successes (replies : List (HttpReply LatestLedgerResult)) : List Int :=
  replies.filterMap observed

/-! ## The world around the poller -/

abbrev PollerEvent := Event PollerOp PollerOp.Reply

/-- The shared counter, the replies still to come, and what the poller has done. -/
structure PollerWorld where
  lastKnown : U32
  replies : List (HttpReply LatestLedgerResult)
  events : List PollerEvent

namespace PollerWorld

def record (w : PollerWorld) (e : PollerEvent) : PollerWorld :=
  { w with events := w.events ++ [e] }

def answer : (op : PollerOp) → PollerWorld → Option (op.Reply × PollerWorld)
  | .postGetLatestLedger, w =>
      match w.replies with
      | [] => none
      | reply :: rest =>
          some (reply, { w with replies := rest }.record ⟨.postGetLatestLedger, reply⟩)
  | .loadLastKnown, w => some (w.lastKnown, w.record ⟨.loadLastKnown, w.lastKnown⟩)
  | .storeLastKnown seq, w =>
      some ((), { w with lastKnown := seq }.record ⟨.storeLastKnown seq, ()⟩)
  | .sleep duration, w => some ((), w.record ⟨.sleep duration, ()⟩)
  | .broadcast event, w => some ((), w.record ⟨.broadcast event, ()⟩)
  | .log entry, w => some ((), w.record ⟨.log entry, ()⟩)
  | .abort, _ => none

end PollerWorld

/-! ## What is read off the events -/

/-- The ledgers broadcast, in order. -/
def broadcasts (events : List PollerEvent) : List Int :=
  events.filterMap fun e => match e.op with
    | .broadcast (.advance seq) => some seq.val
    | _ => none

/-- A wait, in nanoseconds, or a reply with the ledger it reports. -/
inductive PollerStep where
  | wait (nanos : Nat)
  | reply (ledger : Option Int)

/-- When the poller waits and polls. -/
def timeline (events : List PollerEvent) : List PollerStep :=
  events.filterMap fun
    | ⟨.sleep duration, _⟩ => some (.wait duration.nanos)
    | ⟨.postGetLatestLedger, reply⟩ => some (.reply (observed reply))
    | _ => none

/-! ## The policy -/

/-- The poller waits for the poll interval before every request, and after a failure for the
initial back-off times `2 ^ k` or the cap, whichever is less, where `k` is the number of failures
directly before that one. -/
def schedule (poller : LedgerPoller) : Nat → List (Option Int) → List PollerStep
  | _, [] => []
  | _, some ledger :: rest =>
      .wait poller.pollInterval.nanos :: .reply (some ledger) :: schedule poller 0 rest
  | k, none :: rest =>
      .wait poller.pollInterval.nanos :: .reply none ::
        .wait (min (poller.retryBackoffInitial.nanos * 2 ^ k) poller.retryBackoffMax.nanos) ::
          schedule poller (k + 1) rest

/-- After these replies, the poller has followed the ledgers that they report. -/
structure FollowsLedgers (poller : LedgerPoller) (replies : List (HttpReply LatestLedgerResult))
    (w : PollerWorld) : Prop where
  broadcasts : broadcasts w.events = records 0 (successes replies)
  increasing : (Engine.broadcasts w.events).Pairwise (· < ·)
  lastKnown_max : w.lastKnown.val = (successes replies).foldl max 0
  lastKnown_latest : w.lastKnown.val = (Engine.broadcasts w.events).getLastD 0
  timeline : timeline w.events = schedule poller 0 (replies.map observed)

/-! ## Progress -/

/-- Between two states the poller has made these broadcasts and steps, and has left these replies
and this value of the counter. -/
structure Progress (w w' : PollerWorld) (replies : List (HttpReply LatestLedgerResult))
    (lastKnown : Int) (sent : List Int) (steps : List PollerStep) : Prop where
  replies : w'.replies = replies
  lastKnown : w'.lastKnown.val = lastKnown
  broadcasts : broadcasts w'.events = broadcasts w.events ++ sent
  timeline : timeline w'.events = timeline w.events ++ steps

theorem Progress.trans {w w₁ w' : PollerWorld}
    {replies₁ replies' : List (HttpReply LatestLedgerResult)} {last₁ last' : Int}
    {sent₁ sent' : List Int} {steps₁ steps' : List PollerStep}
    (h₁ : Progress w w₁ replies₁ last₁ sent₁ steps₁)
    (h' : Progress w₁ w' replies' last' sent' steps') :
    Progress w w' replies' last' (sent₁ ++ sent') (steps₁ ++ steps') where
  replies := h'.replies
  lastKnown := h'.lastKnown
  broadcasts := by rw [h'.broadcasts, h₁.broadcasts, List.append_assoc]
  timeline := by rw [h'.timeline, h₁.timeline, List.append_assoc]

theorem Progress.refl (w : PollerWorld) : Progress w w w.replies w.lastKnown.val [] [] where
  replies := rfl
  lastKnown := rfl
  broadcasts := (List.append_nil _).symm
  timeline := (List.append_nil _).symm

/-- One more event is recorded. -/
theorem Progress.record {w w' : PollerWorld} {replies : List (HttpReply LatestLedgerResult)}
    {last : Int} {sent : List Int} {steps : List PollerStep}
    (h : Progress w w' replies last sent steps) (e : PollerEvent) :
    Progress w (w'.record e) replies last (sent ++ Engine.broadcasts [e])
      (steps ++ Engine.timeline [e]) where
  replies := h.replies
  lastKnown := h.lastKnown
  broadcasts := by
    rw [← List.append_assoc, ← h.broadcasts]
    exact List.filterMap_append
  timeline := by
    rw [← List.append_assoc, ← h.timeline]
    exact List.filterMap_append

/-- The counter is stored. -/
theorem Progress.store {w w' : PollerWorld} {replies : List (HttpReply LatestLedgerResult)}
    {last : Int} {sent : List Int} {steps : List PollerStep}
    (h : Progress w w' replies last sent steps) (seq : U32) :
    Progress w { w' with lastKnown := seq } replies seq.val sent steps where
  replies := h.replies
  lastKnown := rfl
  broadcasts := h.broadcasts
  timeline := h.timeline

variable {p : Profile} {poller : LedgerPoller} {v : LedgerPoller.Locals} {w : PollerWorld}
  {reply : HttpReply LatestLedgerResult} {rest : List (HttpReply LatestLedgerResult)} {k : Nat}

/-! ## A request -/

theorem run_postGetLatestLedger (hw : w.replies = reply :: rest) :
    (Program.request PollerOp.postGetLatestLedger : PollerM _).run PollerWorld.answer w =
      some (reply, { w with replies := rest }.record ⟨.postGetLatestLedger, reply⟩) := by
  rw [Program.run_request]
  obtain ⟨last, replies, events⟩ := w
  cases hw
  rfl

theorem progress_postGetLatestLedger :
    Progress w ({ w with replies := rest }.record ⟨.postGetLatestLedger, reply⟩) rest
      w.lastKnown.val [] [.reply (observed reply)] :=
  (Progress.mk rfl rfl (List.append_nil _).symm (List.append_nil _).symm : Progress w
    { w with replies := rest } rest w.lastKnown.val [] []).record ⟨.postGetLatestLedger, reply⟩

theorem eq_json_of_call {result : LatestLedgerResult} (h : RpcClient.call reply = .ok result) :
    reply = .json none result := by
  cases reply with
  | sendError isTimeout isConnect message =>
      unfold RpcClient.call at h
      cases isTimeout <;> cases isConnect <;> cases h
  | httpError status => cases h
  | invalidJson message => cases h
  | json error result' =>
      cases error with
      | none =>
          cases h
          rfl
      | some reason => cases h

/-- A reply that reports a ledger in the range of the type. -/
theorem run_getLatestLedger_success (hw : w.replies = reply :: rest) {ledger : Int}
    (hobserved : observed reply = some ledger) (hrange : IntTy.u32.InRange ledger) :
    ∃ seq w', RpcClient.getLatestLedger.run PollerWorld.answer w = some (.ok seq, w') ∧
      seq.val = ledger ∧ Progress w w' rest w.lastKnown.val [] [.reply (some ledger)] := by
  have hreply : ∃ seq : U64, reply = .json none ⟨some seq⟩ ∧ seq.val = ledger := by
    unfold observed at hobserved
    split at hobserved
    · cases hobserved
      exact ⟨_, rfl, rfl⟩
    · cases hobserved
  obtain ⟨seq, rfl, rfl⟩ := hreply
  have hstep : Progress w _ rest w.lastKnown.val [] [.reply (observed (.json none ⟨some seq⟩))] :=
    progress_postGetLatestLedger
  refine ⟨MachineInt.wrap .u32 seq.val, _, ?_, MachineInt.val_wrap_of_inRange hrange, hstep⟩
  unfold RpcClient.getLatestLedger
  rw [Program.run_bind, run_postGetLatestLedger hw]
  rfl

/-- A request that has failed, in whatever way. -/
theorem run_getLatestLedger_failure (hw : w.replies = reply :: rest)
    (hobserved : observed reply = none) :
    ∃ e w', RpcClient.getLatestLedger.run PollerWorld.answer w = some (.error e, w') ∧
      Progress w w' rest w.lastKnown.val [] [.reply none] := by
  have hstep : Progress w _ rest w.lastKnown.val [] [.reply (observed reply)] :=
    progress_postGetLatestLedger
  rw [hobserved] at hstep
  unfold RpcClient.getLatestLedger
  rw [Program.run_bind, run_postGetLatestLedger hw, Option.bind_some]
  cases hcall : RpcClient.call reply with
  | error e =>
      cases e with
      | transient e => exact ⟨e, _, rfl, hstep⟩
      -- an error of the endpoint is logged and then treated as a timeout
      | nonTransient e => exact ⟨.rpcTimeout, _, rfl, hstep.record ⟨.log _, ()⟩⟩
  | ok result =>
      obtain ⟨e, he⟩ : ∃ e, RpcClient.sequence result = .error e := by
        obtain rfl := eq_json_of_call hcall
        obtain ⟨sequence⟩ := result
        cases sequence with
        | none => exact ⟨_, rfl⟩
        | some seq => cases hobserved
      refine ⟨e, _, ?_, hstep⟩
      show some (RpcClient.sequence result, _) = _
      rw [he]

/-! ## An iteration -/

/-- The local variables after `k` failures in a row. -/
structure AfterFailures (poller : LedgerPoller) (k : Nat) (v : LedgerPoller.Locals) : Prop where
  backoff : IsBackoff poller.retryBackoffInitial poller.retryBackoffMax k v.backoff
  consecutiveErrors : v.consecutiveErrors.val = k

/-- A success resets the local variables, if it has to. -/
theorem run_resetErrors
    (hrange : BackoffRange poller.retryBackoffInitial poller.retryBackoffMax)
    (hv : AfterFailures poller k v) (seq : U32) :
    ∃ v' w', (poller.resetErrors v seq).run PollerWorld.answer w = some (v', w') ∧
      AfterFailures poller 0 v' ∧ Progress w w' w.replies w.lastKnown.val [] [] := by
  unfold LedgerPoller.resetErrors
  split
  · exact ⟨_, _, rfl, ⟨isBackoff_zero hrange, rfl⟩, (Progress.refl w).record ⟨.log _, ()⟩⟩
  · -- without errors before, nothing has to be reset
    have hzero : k = 0 := by
      have hpos : ¬ (0 : U32).val < v.consecutiveErrors.val := ‹_›
      have hval : (0 : U32).val = 0 := rfl
      have herrors := hv.consecutiveErrors
      omega
    exact ⟨v, w, rfl, hzero ▸ hv, Progress.refl w⟩

/-- A ledger above the last known one is stored and broadcast; another one is ignored. -/
theorem run_advanceTo (seq : U32) :
    ∃ w', (LedgerPoller.advanceTo seq).run PollerWorld.answer w = some ((), w') ∧
      Progress w w' w.replies (max w.lastKnown.val seq.val)
        (if w.lastKnown.val < seq.val then [seq.val] else []) [] := by
  unfold LedgerPoller.advanceTo
  rw [Program.run_bind, Program.run_request]
  have hload := (Progress.refl w).record ⟨.loadLastKnown, w.lastKnown⟩
  show ∃ w', Program.run _ (if w.lastKnown < seq then _ else _)
    (w.record ⟨.loadLastKnown, w.lastKnown⟩) = _ ∧ _
  by_cases hlt : w.lastKnown.val < seq.val
  · rw [if_pos (MachineInt.lt_iff.2 hlt), if_pos hlt, max_eq_right hlt.le]
    exact ⟨_, rfl, (((hload.store seq).record ⟨.storeLastKnown seq, ()⟩).record
      ⟨.broadcast (.advance seq), ()⟩).record ⟨.log (.ledgerAdvance seq), ()⟩⟩
  · rw [if_neg (fun h => hlt (MachineInt.lt_iff.1 h)), if_neg hlt, max_eq_left (not_lt.1 hlt)]
    exact ⟨_, rfl, hload⟩

theorem run_onSequence
    (hrange : BackoffRange poller.retryBackoffInitial poller.retryBackoffMax)
    (hv : AfterFailures poller k v) (seq : U32) :
    ∃ v' w', (poller.onSequence v seq).run PollerWorld.answer w = some (v', w') ∧
      AfterFailures poller 0 v' ∧
      Progress w w' w.replies (max w.lastKnown.val seq.val)
        (if w.lastKnown.val < seq.val then [seq.val] else []) [] := by
  obtain ⟨v', w₁, hreset, hv', hprogress₁⟩ := run_resetErrors (w := w) hrange hv seq
  obtain ⟨w', hadvance, hprogress'⟩ := run_advanceTo (w := w₁) seq
  refine ⟨v', w', ?_, hv', ?_⟩
  · unfold LedgerPoller.onSequence
    rw [Program.run_bind, hreset, Option.bind_some, Program.run_bind, hadvance]
    rfl
  · rw [hprogress₁.replies, hprogress₁.lastKnown] at hprogress'
    exact hprogress₁.trans hprogress'

/-- A failure is followed by the back-off. -/
theorem run_onError (e : TransientError)
    (hrange : BackoffRange poller.retryBackoffInitial poller.retryBackoffMax)
    (hv : AfterFailures poller k v) (hk : k + 1 < 2 ^ 32) :
    ∃ v' w', (poller.onError p v e).run PollerWorld.answer w = some (v', w') ∧
      AfterFailures poller (k + 1) v' ∧
      Progress w w' w.replies w.lastKnown.val []
        [.wait (min (poller.retryBackoffInitial.nanos * 2 ^ k) poller.retryBackoffMax.nanos)] := by
  have hfits : IntTy.u32.InRange (v.consecutiveErrors.val + (1 : U32).val) := by
    have hone : (1 : U32).val = 1 := rfl
    rw [IntTy.inRange_u32, hv.consecutiveErrors, hone]
    omega
  have hadd : p.add v.consecutiveErrors 1 = some ⟨_, hfits⟩ := p.fit_of_inRange hfits
  obtain ⟨doubled, hdouble, hnext⟩ := hv.backoff.double hrange
  have hwait : v.backoff.nanos =
      min (poller.retryBackoffInitial.nanos * 2 ^ k) poller.retryBackoffMax.nanos := hv.backoff
  have hprogress : Progress w _ w.replies w.lastKnown.val [] [.wait v.backoff.nanos] :=
    ((Progress.refl w).record ⟨.log (LedgerPoller.errorEntry e ⟨_, hfits⟩ v.backoff.asSecs), ()⟩).record
      ⟨.sleep v.backoff, ()⟩
  rw [hwait] at hprogress
  refine ⟨⟨doubled.min poller.retryBackoffMax, ⟨_, hfits⟩⟩, _, ?_, ⟨hnext, ?_⟩, hprogress⟩
  · unfold LedgerPoller.onError
    rw [hadd, hdouble]
    rfl
  · show v.consecutiveErrors.val + 1 = _
    rw [hv.consecutiveErrors]
    rfl

/-- An iteration waits, asks, and goes on by the answer. -/
theorem run_poll {result : Except TransientError U32} {w₁ : PollerWorld}
    (hget : RpcClient.getLatestLedger.run PollerWorld.answer
      (w.record ⟨.sleep poller.pollInterval, ()⟩) = some (result, w₁)) :
    (poller.poll p v).run PollerWorld.answer w =
      (match result with
        | .ok seq => poller.onSequence v seq
        | .error e => poller.onError p v e).run PollerWorld.answer w₁ := by
  unfold LedgerPoller.poll
  rw [Program.run_bind, Program.run_request]
  show Program.run _ (_ >>= _) (w.record ⟨.sleep poller.pollInterval, ()⟩) = _
  rw [Program.run_bind, hget]
  rfl

theorem run_poll_success
    (hrange : BackoffRange poller.retryBackoffInitial poller.retryBackoffMax)
    (hv : AfterFailures poller k v) (hw : w.replies = reply :: rest) {ledger : Int}
    (hobserved : observed reply = some ledger) (hledger : IntTy.u32.InRange ledger) :
    ∃ v' w', (poller.poll p v).run PollerWorld.answer w = some (v', w') ∧
      AfterFailures poller 0 v' ∧
      Progress w w' rest (max w.lastKnown.val ledger)
        (if w.lastKnown.val < ledger then [ledger] else [])
        [.wait poller.pollInterval.nanos, .reply (some ledger)] := by
  have hwait := (Progress.refl w).record ⟨.sleep poller.pollInterval, ()⟩
  obtain ⟨seq, w₁, hget, rfl, hprogress₁⟩ := run_getLatestLedger_success
    (w := w.record ⟨.sleep poller.pollInterval, ()⟩) hw hobserved hledger
  obtain ⟨v', w', honSequence, hv', hprogress'⟩ := run_onSequence (w := w₁) hrange hv seq
  rw [hprogress₁.replies, hprogress₁.lastKnown] at hprogress'
  exact ⟨v', w', (run_poll hget).trans honSequence, hv', (hwait.trans hprogress₁).trans hprogress'⟩

theorem run_poll_failure
    (hrange : BackoffRange poller.retryBackoffInitial poller.retryBackoffMax)
    (hv : AfterFailures poller k v) (hk : k + 1 < 2 ^ 32) (hw : w.replies = reply :: rest)
    (hobserved : observed reply = none) :
    ∃ v' w', (poller.poll p v).run PollerWorld.answer w = some (v', w') ∧
      AfterFailures poller (k + 1) v' ∧
      Progress w w' rest w.lastKnown.val []
        [.wait poller.pollInterval.nanos, .reply none,
          .wait (min (poller.retryBackoffInitial.nanos * 2 ^ k) poller.retryBackoffMax.nanos)] := by
  have hwait := (Progress.refl w).record ⟨.sleep poller.pollInterval, ()⟩
  obtain ⟨e, w₁, hget, hprogress₁⟩ := run_getLatestLedger_failure
    (w := w.record ⟨.sleep poller.pollInterval, ()⟩) hw hobserved
  obtain ⟨v', w', honError, hv', hprogress'⟩ := run_onError (p := p) (w := w₁) e hrange hv hk
  rw [hprogress₁.replies, hprogress₁.lastKnown] at hprogress'
  exact ⟨v', w', (run_poll hget).trans honError, hv', (hwait.trans hprogress₁).trans hprogress'⟩

/-! ## Runs -/

theorem run_iterations_succ {n : Nat} {v₁ : LedgerPoller.Locals} {w₁ : PollerWorld}
    (hpoll : (poller.poll p v).run PollerWorld.answer w = some (v₁, w₁)) :
    (poller.iterations p (n + 1) v).run PollerWorld.answer w =
      (poller.iterations p n v₁).run PollerWorld.answer w₁ := by
  show Program.run _ (poller.poll p v >>= fun v => poller.iterations p n v) w = _
  rw [Program.run_bind, hpoll, Option.bind_some]

/-- By induction on the replies, after `k` failures in a row that they may continue. -/
theorem run_iterations
    (hrange : BackoffRange poller.retryBackoffInitial poller.retryBackoffMax)
    (hv : AfterFailures poller k v)
    (hledger : ∀ reply ∈ w.replies, ∀ ledger, observed reply = some ledger →
      IntTy.u32.InRange ledger)
    (hfailures : ∀ run, run <:+: List.replicate k none ++ w.replies.map observed →
      (∀ o ∈ run, o = none) → run.length < 2 ^ 32) :
    ∃ v' w', (poller.iterations p w.replies.length v).run PollerWorld.answer w = some (v', w') ∧
      Progress w w' [] ((successes w.replies).foldl max w.lastKnown.val)
        (records w.lastKnown.val (successes w.replies))
        (schedule poller k (w.replies.map observed)) := by
  generalize hw : w.replies = replies at hledger hfailures
  induction replies generalizing k v w with
  | nil =>
      have hrefl := Progress.refl w
      rw [hw] at hrefl
      exact ⟨v, w, rfl, hrefl⟩
  | cons reply rest ih =>
      have hrest : ∀ reply ∈ rest, ∀ ledger, observed reply = some ledger →
          IntTy.u32.InRange ledger := fun r hr => hledger r (List.mem_cons_of_mem _ hr)
      rw [List.map_cons] at hfailures
      cases hobserved : observed reply with
      | some ledger =>
          rw [hobserved] at hfailures
          obtain ⟨v₁, w₁, hpoll, hv₁, hprogress₁⟩ := run_poll_success (p := p) hrange hv hw hobserved
            (hledger reply (List.mem_cons_self ..) ledger hobserved)
          -- What follows the success is the end of the outcomes.
          have hsuffix : rest.map observed <:+
              List.replicate k none ++ some ledger :: rest.map observed :=
            (List.suffix_cons _ _).trans (List.suffix_append _ _)
          obtain ⟨v', w', hrun, hprogress'⟩ := ih hv₁ hprogress₁.replies hrest
            fun run hrun => hfailures run (hrun.trans hsuffix.isInfix)
          refine ⟨v', w', ?_, ?_⟩
          · exact (run_iterations_succ hpoll).trans hrun
          · rw [hprogress₁.lastKnown] at hprogress'
            have hsuccesses : successes (reply :: rest) = ledger :: successes rest :=
              List.filterMap_cons_some hobserved
            rw [hsuccesses, records_cons, List.foldl_cons, List.map_cons, hobserved]
            exact hprogress₁.trans hprogress'
      | none =>
          rw [hobserved] at hfailures
          -- the failures before this one and this one are one run more
          have hmore : List.replicate k none ++ none :: rest.map observed =
              List.replicate (k + 1) none ++ rest.map observed := by
            rw [List.replicate_succ', List.append_assoc, List.singleton_append]
          rw [hmore] at hfailures
          -- a run of failures is shorter than the range of the counter
          have hk : k + 1 < 2 ^ 32 := by
            have hlength := hfailures _ (List.prefix_append _ _).isInfix
              fun o ho => List.eq_of_mem_replicate ho
            rwa [List.length_replicate] at hlength
          obtain ⟨v₁, w₁, hpoll, hv₁, hprogress₁⟩ :=
            run_poll_failure (p := p) hrange hv hk hw hobserved
          obtain ⟨v', w', hrun, hprogress'⟩ := ih hv₁ hprogress₁.replies hrest hfailures
          refine ⟨v', w', ?_, ?_⟩
          · exact (run_iterations_succ hpoll).trans hrun
          · rw [hprogress₁.lastKnown] at hprogress'
            have hsuccesses : successes (reply :: rest) = successes rest :=
              List.filterMap_cons_none hobserved
            rw [hsuccesses, List.map_cons, hobserved]
            exact hprogress₁.trans hprogress'

/-- With an accepted configuration, in either build profile, the poller follows the ledgers that
the replies report, as long as less than `2 ^ 32` requests fail in a row. -/
theorem poller_trace (env : Environment) (cfg : EngineConfig) (hcfg : fromEnv env = .ok cfg)
    (p : Profile) (replies : List (HttpReply LatestLedgerResult))
    (hledger : ∀ reply ∈ replies, ∀ ledger, observed reply = some ledger →
      IntTy.u32.InRange ledger)
    (hfailures : ∀ run, run <:+: replies.map observed → (∀ o ∈ run, o = none) →
      run.length < 2 ^ 32) :
    ∃ v w, ((LedgerPoller.ofConfig cfg).run p replies.length).run PollerWorld.answer
        ⟨0, replies, []⟩ = some (v, w) ∧ FollowsLedgers (LedgerPoller.ofConfig cfg) replies w := by
  have hrange : BackoffRange (LedgerPoller.ofConfig cfg).retryBackoffInitial
      (LedgerPoller.ofConfig cfg).retryBackoffMax := backoffRange_of_fromEnv hcfg
  have hstart : AfterFailures (LedgerPoller.ofConfig cfg) 0
      ⟨(LedgerPoller.ofConfig cfg).retryBackoffInitial, 0⟩ := ⟨isBackoff_zero hrange, rfl⟩
  obtain ⟨v, w, hrun, hprogress⟩ := run_iterations (p := p) (w := ⟨0, replies, []⟩) hrange hstart
    hledger hfailures
  have hbroadcasts : broadcasts w.events = records 0 (successes replies) := hprogress.broadcasts
  have hlast : w.lastKnown.val = (successes replies).foldl max 0 := hprogress.lastKnown
  refine ⟨v, w, hrun, { broadcasts := hbroadcasts, increasing := ?_, lastKnown_max := hlast,
                        lastKnown_latest := ?_, timeline := hprogress.timeline }⟩
  · rw [hbroadcasts]
    exact pairwise_records 0 _
  · rw [hbroadcasts, getLast_records]
    exact hlast

/-- A ledger, a failure, and a stale, a repeated and a new ledger: what is broadcast is the first
and the last one. -/
theorem poller_trace_sample :
    let replies : List (HttpReply LatestLedgerResult) :=
      [.json none ⟨some 7⟩, .httpError 503, .json none ⟨some 5⟩, .json none ⟨some 7⟩,
        .json none ⟨some 9⟩]
    ∃ v w, ((LedgerPoller.ofConfig (sampleSettings.toConfig none)).run .debug replies.length).run
        PollerWorld.answer ⟨0, replies, []⟩ = some (v, w) ∧ broadcasts w.events = [7, 9] := by
  intro replies
  have hobserved : replies.map observed = [some 7, none, some 5, some 7, some 9] := rfl
  have hledger : ∀ reply ∈ replies, ∀ ledger, observed reply = some ledger →
      IntTy.u32.InRange ledger := by
    intro reply hreply ledger hledger
    have hmem : some ledger ∈ replies.map observed := hledger ▸ List.mem_map_of_mem hreply
    rw [hobserved] at hmem
    simp only [List.mem_cons, Option.some.injEq, reduceCtorEq, List.not_mem_nil, or_false,
      false_or] at hmem
    rw [IntTy.inRange_u32]
    omega
  have hfailures : ∀ run, run <:+: replies.map observed → (∀ o ∈ run, o = none) →
      run.length < 2 ^ 32 := by
    intro run hrun _
    have hlength := hrun.length_le
    rw [hobserved] at hlength
    exact lt_of_le_of_lt hlength (by decide)
  obtain ⟨v, w, hrun, h⟩ := poller_trace _ _ fromEnv_sampleEnvironment .debug replies
    hledger hfailures
  exact ⟨v, w, hrun, h.broadcasts⟩

end ChronosKeeper.Engine
