import ChronosKeeper.Engine.Confirmation
import ChronosKeeper.Foundations.Returns

/-!
# The traces of the pipeline

What `execute_with_retry` does and which replies lead it there, as the complete traces of its
program. The wait for confirmation is a single poll (`returns_waitForConfirmation_iff`), so the
traces that follow an accepted submission are the four of `AwaitTrace`; `AttemptsTrace` has one
case for each way an attempt goes on (`returns_attemptsFrom_iff`).
-/

set_option autoImplicit false

namespace ChronosKeeper.Engine

open ChronosKeeper.Foundations

abbrev EngineEvent := Event EngineOp EngineOp.Reply

/-! ## Replies -/

/-- What the client makes of the reply to a submission. -/
def submissionResult (reply : HttpReply SendTxResult) : Except EngineError TxHash :=
  (RpcClient.call reply).bind RpcClient.txHash

/-- What the wait makes of the reply to its first poll. -/
def pollResult (pipeline : ExecutionPipeline) (hash : TxHash)
    (reply : Timed (HttpReply GetTxResult)) : Except EngineError TxResult :=
  if pipeline.confirmationTimeout.nanos < reply.latency then pipeline.timedOut
  else (RpcClient.call reply.value).map (RpcClient.txResult hash)

/-- The timestamp stored for a confirmation. -/
def nowTs (elapsed : Option U64) : I64 :=
  match elapsed with | some secs => MachineInt.wrap .i64 secs.val | none => 0

variable {crates : Crates} {pipeline : ExecutionPipeline} {task : RemoteTask}
  {role : ExecutionRole} {hash : TxHash} {attempt left : Nat} {backoff : Duration}
  {t : List EngineEvent}

/-! ## The wait -/

/-- The loop takes the first reply for a final one, so the wait is one poll. -/
theorem returns_waitForConfirmation_iff {result : Except EngineError TxResult} :
    (pipeline.waitForConfirmation hash).Returns t result ↔
      ∃ poll, t = [⟨.postGetTransaction hash, poll⟩] ∧ result = pollResult pipeline hash poll := by
  unfold ExecutionPipeline.waitForConfirmation ExecutionPipeline.pollUntilFinal
    RpcClient.getTransaction
  rw [postGetTransaction_bind, Program.perform_bind, Program.returns_perform_iff]
  simp only [Program.pure_eq_done, Program.done_bind]
  refine exists_congr fun poll => ?_
  -- both ways out of the first iteration return the outcome of the poll
  have hdone : ∀ {x : EngineM (Except EngineError TxResult)},
      x = .done (pollResult pipeline hash poll) →
      ((∃ t', t = ⟨.postGetTransaction hash, poll⟩ :: t' ∧ x.Returns t' result) ↔
        t = [⟨.postGetTransaction hash, poll⟩] ∧ result = pollResult pipeline hash poll) := by
    rintro x rfl
    constructor
    · rintro ⟨t', rfl, h⟩
      obtain ⟨rfl, rfl⟩ := Program.returns_done_iff.1 h
      exact ⟨rfl, rfl⟩
    · rintro ⟨rfl, rfl⟩
      exact ⟨[], rfl, .done _⟩
  apply hdone
  unfold pollResult
  split
  · rfl
  · -- a reply in time is final, whatever its status
    cases RpcClient.call poll.value with
    | error e => rfl
    | ok result => exact if_pos (RpcClient.isFinal_txResult hash result)

/-- What follows an accepted submission. -/
inductive AwaitTrace (pipeline : ExecutionPipeline) (task : RemoteTask) (role : ExecutionRole)
    (hash : TxHash) : List EngineEvent → Prop
  | confirmed {poll : Timed (HttpReply GetTxResult)} {result : TxResult} (elapsed : Option U64)
      (hpoll : pollResult pipeline hash poll = .ok result) (hsuccess : result.success = true) :
      AwaitTrace pipeline task role hash
        [⟨.postGetTransaction hash, poll⟩, ⟨.unixTime, elapsed⟩,
          ⟨.storeLastConfirmedTs (nowTs elapsed), ()⟩,
          ⟨.log (.executionConfirmed task.taskIdHex pipeline.keeperAddress result.ledger hash
            role), ()⟩]
  | failedOnChain {poll : Timed (HttpReply GetTxResult)} {result : TxResult}
      (hpoll : pollResult pipeline hash poll = .ok result) (hfailed : result.success = false) :
      AwaitTrace pipeline task role hash
        [⟨.postGetTransaction hash, poll⟩,
          ⟨.log (.failedOnChain task.taskIdHex hash result.errorDetail), ()⟩]
  | timedOut {poll : Timed (HttpReply GetTxResult)} {elapsed : Duration}
      (hpoll : pollResult pipeline hash poll =
        .error (.nonTransient (.confirmationTimeout elapsed))) :
      AwaitTrace pipeline task role hash
        [⟨.postGetTransaction hash, poll⟩, ⟨.log (.confirmationTimeout task.taskIdHex hash), ()⟩]
  | error {poll : Timed (HttpReply GetTxResult)} {e : EngineError}
      (hpoll : pollResult pipeline hash poll = .error e)
      (hne : ∀ elapsed, e ≠ .nonTransient (.confirmationTimeout elapsed)) :
      AwaitTrace pipeline task role hash
        [⟨.postGetTransaction hash, poll⟩, ⟨.log (.confirmationError task.taskIdHex e), ()⟩]

theorem returns_log_iff {entry : LogEntry} :
    (log entry).Returns t () ↔ t = [⟨.log entry, ()⟩] :=
  Program.returns_request_iff

/-- By the outcome of the wait. -/
theorem returns_awaitOutcome_iff :
    (pipeline.awaitOutcome task role hash).Returns t () ↔
      AwaitTrace pipeline task role hash t := by
  unfold ExecutionPipeline.awaitOutcome
  rw [Program.returns_bind_iff]
  constructor
  · rintro ⟨t₁, t₂, outcome, rfl, hwait, hrest⟩
    obtain ⟨poll, rfl, hpoll⟩ := returns_waitForConfirmation_iff.1 hwait
    cases outcome with
    | ok result =>
        dsimp only at hrest
        cases hsuccess : result.success with
        | true =>
            -- the clock is read, the timestamp is stored, and the success is logged
            rw [if_pos hsuccess] at hrest
            obtain ⟨elapsed, t₃, rfl, hstore⟩ := Program.returns_perform_iff.1 hrest
            obtain ⟨u, t₄, rfl, hlog⟩ := Program.returns_perform_iff.1 hstore
            cases returns_log_iff.1 hlog
            exact .confirmed elapsed hpoll.symm hsuccess
        | false =>
            rw [if_neg (ne_true_of_eq_false hsuccess)] at hrest
            cases returns_log_iff.1 hrest
            exact .failedOnChain hpoll.symm hsuccess
    | error e =>
        dsimp only at hrest
        split at hrest
        · cases ‹Except.error _ = Except.ok _›
        · cases ‹Except.error e = _›
          cases returns_log_iff.1 hrest
          exact .timedOut hpoll.symm
        · cases ‹Except.error e = _›
          cases returns_log_iff.1 hrest
          rename_i hne
          exact .error hpoll.symm hne
  · intro h
    cases h with
    | confirmed elapsed hpoll hsuccess =>
        refine ⟨_, _, _, rfl, returns_waitForConfirmation_iff.2 ⟨_, rfl, hpoll.symm⟩, ?_⟩
        dsimp only
        rw [if_pos hsuccess]
        exact Program.returns_perform_iff.2 ⟨elapsed, _, rfl,
          Program.returns_perform_iff.2 ⟨(), _, rfl, returns_log_iff.2 rfl⟩⟩
    | failedOnChain hpoll hfailed =>
        refine ⟨_, _, _, rfl, returns_waitForConfirmation_iff.2 ⟨_, rfl, hpoll.symm⟩, ?_⟩
        dsimp only
        rw [if_neg (ne_true_of_eq_false hfailed)]
        exact returns_log_iff.2 rfl
    | timedOut hpoll =>
        exact ⟨_, _, _, rfl, returns_waitForConfirmation_iff.2 ⟨_, rfl, hpoll.symm⟩,
          returns_log_iff.2 rfl⟩
    | error hpoll hne =>
        refine ⟨_, _, _, rfl, returns_waitForConfirmation_iff.2 ⟨_, rfl, hpoll.symm⟩, ?_⟩
        dsimp only
        split
        · cases ‹Except.error _ = Except.ok _›
        · cases ‹Except.error _ = Except.error (EngineError.nonTransient _)›
          exact absurd rfl (hne _)
        · cases ‹Except.error _ = Except.error _›
          exact returns_log_iff.2 rfl

/-! ## The attempts -/

/-- The attempt number `attempt` and those that follow it, of which there are at most `left`. -/
inductive AttemptsTrace (crates : Crates) (pipeline : ExecutionPipeline) (task : RemoteTask)
    (role : ExecutionRole) : Nat → Duration → Nat → List EngineEvent → Prop
  | accepted {attempt left : Nat} {backoff : Duration} {reply : HttpReply SendTxResult}
      {hash : TxHash} {t : List EngineEvent} (hreply : submissionResult reply = .ok hash)
      (ht : AwaitTrace pipeline task role hash t) :
      AttemptsTrace crates pipeline task role attempt backoff left
        (⟨.postSendTransaction (pipeline.buildSignedTransaction crates task role), reply⟩ :: t)
  | dropped {attempt left : Nat} {backoff : Duration} {reply : HttpReply SendTxResult}
      {e : NonTransientError} (hreply : submissionResult reply = .error (.nonTransient e)) :
      AttemptsTrace crates pipeline task role attempt backoff left
        [⟨.postSendTransaction (pipeline.buildSignedTransaction crates task role), reply⟩,
          ⟨.log (.droppingTask task.taskIdHex e), ()⟩]
  | exhausted {attempt : Nat} {backoff : Duration} {reply : HttpReply SendTxResult}
      {e : TransientError} (hreply : submissionResult reply = .error (.transient e)) :
      AttemptsTrace crates pipeline task role attempt backoff 0
        [⟨.postSendTransaction (pipeline.buildSignedTransaction crates task role), reply⟩,
          ⟨.log (.maxRetriesReached task.taskIdHex e attempt), ()⟩]
  | retried {attempt left : Nat} {backoff doubled : Duration} {reply : HttpReply SendTxResult}
      {e : TransientError} {t : List EngineEvent}
      (hreply : submissionResult reply = .error (.transient e))
      (hdouble : backoff.double = some doubled)
      (ht : AttemptsTrace crates pipeline task role (attempt + 1)
        (doubled.min pipeline.retryBackoffMax) left t) :
      AttemptsTrace crates pipeline task role attempt backoff (left + 1)
        (⟨.postSendTransaction (pipeline.buildSignedTransaction crates task role), reply⟩ ::
          ⟨.log (.retrying task.taskIdHex e attempt backoff.asSecs), ()⟩ ::
          ⟨.sleep backoff, ()⟩ :: t)

theorem returns_sendTransaction_bind_iff {envelope : String}
    {f : Except EngineError TxHash → EngineM Unit} :
    (RpcClient.sendTransaction envelope >>= f).Returns t () ↔
      ∃ reply t', t = ⟨.postSendTransaction envelope, reply⟩ :: t' ∧
        (f (submissionResult reply)).Returns t' () :=
  Program.returns_perform_iff

theorem returns_log_bind_iff {entry : LogEntry} {f : Unit → EngineM Unit} :
    (log entry >>= f).Returns t () ↔ ∃ t', t = ⟨.log entry, ()⟩ :: t' ∧ (f ()).Returns t' () := by
  rw [log_bind, Program.returns_perform_iff]
  exact ⟨fun ⟨(), t', ht, hf⟩ => ⟨t', ht, hf⟩, fun ⟨t', ht, hf⟩ => ⟨(), t', ht, hf⟩⟩

theorem returns_sleep_bind_iff {duration : Duration} {f : Unit → EngineM Unit} :
    (sleep duration >>= f).Returns t () ↔
      ∃ t', t = ⟨.sleep duration, ()⟩ :: t' ∧ (f ()).Returns t' () := by
  show (Program.perform (EngineOp.sleep duration) f).Returns t () ↔ _
  rw [Program.returns_perform_iff]
  exact ⟨fun ⟨(), t', ht, hf⟩ => ⟨t', ht, hf⟩, fun ⟨t', ht, hf⟩ => ⟨(), t', ht, hf⟩⟩

theorem not_returns_abort {α : Type} {a : α} : ¬ (abort : EngineM α).Returns t a := by
  intro h
  obtain ⟨r, -⟩ := Program.returns_perform_iff.1 h
  exact r.elim

theorem AttemptsTrace.returns
    (h : AttemptsTrace crates pipeline task role attempt backoff left t) :
    (pipeline.attemptsFrom crates task role attempt backoff left).Returns t () := by
  induction h with
  | accepted hreply ht =>
      unfold ExecutionPipeline.attemptsFrom
      refine returns_sendTransaction_bind_iff.2 ⟨_, _, rfl, ?_⟩
      rw [hreply]
      exact returns_awaitOutcome_iff.2 ht
  | dropped hreply =>
      unfold ExecutionPipeline.attemptsFrom
      refine returns_sendTransaction_bind_iff.2 ⟨_, _, rfl, ?_⟩
      rw [hreply]
      exact returns_log_iff.2 rfl
  | exhausted hreply =>
      unfold ExecutionPipeline.attemptsFrom
      refine returns_sendTransaction_bind_iff.2 ⟨_, _, rfl, ?_⟩
      rw [hreply]
      exact returns_log_iff.2 rfl
  | retried hreply hdouble _ ih =>
      unfold ExecutionPipeline.attemptsFrom
      refine returns_sendTransaction_bind_iff.2 ⟨_, _, rfl, ?_⟩
      rw [hreply]
      refine returns_log_bind_iff.2 ⟨_, rfl, returns_sleep_bind_iff.2 ⟨_, rfl, ?_⟩⟩
      rw [hdouble]
      exact ih

/-- By induction on the attempts that are left, by the result of the submission. -/
theorem attemptsTrace_of_returns
    (h : (pipeline.attemptsFrom crates task role attempt backoff left).Returns t ()) :
    AttemptsTrace crates pipeline task role attempt backoff left t := by
  induction left generalizing attempt backoff t with
  | zero =>
      unfold ExecutionPipeline.attemptsFrom at h
      obtain ⟨reply, t', rfl, hrest⟩ := returns_sendTransaction_bind_iff.1 h
      generalize hreply : submissionResult reply = result at hrest
      match result, hreply, hrest with
      | .ok _, hreply, hrest => exact .accepted hreply (returns_awaitOutcome_iff.1 hrest)
      | .error (.transient _), hreply, hrest =>
          cases returns_log_iff.1 hrest
          exact .exhausted hreply
      | .error (.nonTransient _), hreply, hrest =>
          cases returns_log_iff.1 hrest
          exact .dropped hreply
  | succ left ih =>
      unfold ExecutionPipeline.attemptsFrom at h
      obtain ⟨reply, t', rfl, hrest⟩ := returns_sendTransaction_bind_iff.1 h
      generalize hreply : submissionResult reply = result at hrest
      match result, hreply, hrest with
      | .ok _, hreply, hrest => exact .accepted hreply (returns_awaitOutcome_iff.1 hrest)
      | .error (.transient _), hreply, hrest =>
          obtain ⟨_, rfl, hsleep⟩ := returns_log_bind_iff.1 hrest
          obtain ⟨_, rfl, hnext⟩ := returns_sleep_bind_iff.1 hsleep
          -- without a doubled back-off the code aborts, and does not return
          cases hdouble : backoff.double with
          | none =>
              rw [hdouble] at hnext
              exact absurd hnext not_returns_abort
          | some doubled =>
              rw [hdouble] at hnext
              exact .retried hreply hdouble (ih hnext)
      | .error (.nonTransient _), hreply, hrest =>
          cases returns_log_iff.1 hrest
          exact .dropped hreply

theorem returns_attemptsFrom_iff :
    (pipeline.attemptsFrom crates task role attempt backoff left).Returns t () ↔
      AttemptsTrace crates pipeline task role attempt backoff left t :=
  ⟨attemptsTrace_of_returns, AttemptsTrace.returns⟩

end ChronosKeeper.Engine
