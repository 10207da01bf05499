import ChronosKeeper.Engine.Retry

/-!
# The status of a submission

An endpoint answers `sendTransaction` with a hash and a status: the transaction is pending or a
duplicate of one that is, or it has been refused for the moment or for good. `RoutesByStatus` is
what the retry loop has to make of the status. The client reads the hash only, so every submission
counts as accepted and the loop ends with the first one (`awaits_of_answered`); it routes by the
status exactly when that of the first reply is one of the accepted ones (`routes_by_status_iff`).
-/

set_option autoImplicit false

namespace ChronosKeeper.Engine

open ChronosKeeper.Foundations

/-! ## Replies -/

inductive SubmissionStatus where
  | pending
  | duplicate
  | tryAgainLater
  | error
  deriving DecidableEq

/-- The network has taken the transaction on. -/
def SubmissionStatus.IsAccepted (status : SubmissionStatus) : Prop :=
  status = .pending ∨ status = .duplicate

/-- A reply to `sendTransaction`. -/
structure SubmissionReply where
  status : SubmissionStatus
  hash : TxHash

/-- What the client reads of the reply. -/
def SubmissionReply.result (reply : SubmissionReply) : SendTxResult where
  hash := some reply.hash

/-- The endpoint answers the submissions of the trace by `replies`, one after the other. -/
def AnsweredBy (replies : Nat → SubmissionReply) (t : List EngineEvent) : Prop :=
  ∀ n reply, (submissions t)[n]? = some reply →
    reply = HttpReply.json none (replies n).result

/-! ## The routing -/

/-- A complete trace of the loop does with every submission what the status of its reply asks
for. -/
structure RoutesByStatus (pipeline : ExecutionPipeline) (task : RemoteTask)
    (replies : Nat → SubmissionReply) (t : List EngineEvent) : Prop where
  /-- It waits for the last submission only, and only if that was accepted. -/
  waits : ∀ pre hash poll post, t = pre ++ ⟨.postGetTransaction hash, poll⟩ :: post →
    ∃ n, (submissions pre).length = n + 1 ∧ hash = (replies n).hash ∧
      (replies n).status.IsAccepted
  /-- While attempts remain, it submits again after the back-off what was refused for the
  moment. -/
  tryAgainLater : ∀ pre envelope reply post,
    t = pre ++ ⟨.postSendTransaction envelope, reply⟩ :: post →
    (replies (submissions pre).length).status = .tryAgainLater →
    (submissions pre).length < pipeline.maxRetries.val.toNat →
      ∃ entry d envelope' reply' post', post = ⟨.log entry, ()⟩ :: ⟨.sleep d, ()⟩ ::
          ⟨.postSendTransaction envelope', reply'⟩ :: post' ∧
        d.nanos = min (pipeline.retryBackoffInitial.nanos * 2 ^ (submissions pre).length)
          pipeline.retryBackoffMax.nanos
  /-- It drops a task that was refused for good, and does nothing else. -/
  error : ∀ pre envelope reply post,
    t = pre ++ ⟨.postSendTransaction envelope, reply⟩ :: post →
    (replies (submissions pre).length).status = .error →
      ∃ e, post = [⟨.log (.droppingTask task.taskIdHex e), ()⟩]

variable {crates : Crates} {pipeline : ExecutionPipeline} {task : RemoteTask}
  {role : ExecutionRole} {replies : Nat → SubmissionReply} {t : List EngineEvent}

/-! ## What the code does -/

/-- Whatever its status, the first reply carries a hash, and the loop waits for it. -/
theorem awaits_of_answered (ht : (pipeline.executeWithRetry crates task role).Returns t ())
    (hreplies : AnsweredBy replies t) :
    ∃ reply t', t = ⟨.postSendTransaction (pipeline.buildSignedTransaction crates task role),
      reply⟩ :: t' ∧ AwaitTrace pipeline task role (replies 0).hash t' := by
  have hfirst : ∀ {envelope : String} {reply : HttpReply SendTxResult} {t' : List EngineEvent},
      t = ⟨.postSendTransaction envelope, reply⟩ :: t' →
        submissionResult reply = .ok (replies 0).hash := by
    rintro envelope reply t' rfl
    rw [hreplies 0 reply rfl]
    rfl
  -- of the four ways an attempt goes on, only the accepted one agrees with a hash
  have h := attemptsTrace_of_returns ht
  generalize pipeline.maxRetries.val.toNat = left at h
  cases h with
  | accepted hreply hawait =>
      cases hreply.symm.trans (hfirst rfl)
      exact ⟨_, _, rfl, hawait⟩
  | dropped hreply => cases hreply.symm.trans (hfirst rfl)
  | exhausted hreply => cases hreply.symm.trans (hfirst rfl)
  | retried hreply => cases hreply.symm.trans (hfirst rfl)

/-- The poll of a wait is its first event. -/
theorem AwaitTrace.exists_poll {hash : TxHash} (h : AwaitTrace pipeline task role hash t) :
    ∃ poll t', t = ⟨.postGetTransaction hash, poll⟩ :: t' ∧
      ∀ hash' poll', ⟨.postGetTransaction hash', poll'⟩ ∉ t' := by
  cases h <;> exact ⟨_, _, rfl, by simp⟩

/-- The loop routes by the status exactly when the first submission is accepted. -/
theorem routes_by_status_iff (crates : Crates) (pipeline : ExecutionPipeline)
    (task : RemoteTask) (role : ExecutionRole) (replies : Nat → SubmissionReply)
    (t : List EngineEvent) (ht : (pipeline.executeWithRetry crates task role).Returns t ())
    (hreplies : AnsweredBy replies t) :
    RoutesByStatus pipeline task replies t ↔ (replies 0).status.IsAccepted := by
  obtain ⟨reply, t', rfl, hawait⟩ := awaits_of_answered ht hreplies
  have hnil := hawait.submissions_eq_nil
  obtain ⟨poll, t'', rfl, hnopoll⟩ := hawait.exists_poll
  constructor
  · intro h
    -- the poll follows the first submission
    obtain ⟨n, hn, -, haccepted⟩ := h.waits [_] _ poll t'' rfl
    cases hn
    exact haccepted
  · intro haccepted
    refine { waits := ?_, tryAgainLater := ?_, error := ?_ }
    · intro pre hash poll' post hsplit
      -- the poll is the second event, and there is no other
      match pre, hsplit with
      | [], hsplit => cases hsplit
      | [_], hsplit =>
          cases hsplit
          exact ⟨0, rfl, rfl, haccepted⟩
      | _ :: _ :: pre, hsplit =>
          obtain ⟨-, hrest⟩ := List.cons.inj (List.cons.inj hsplit).2
          refine absurd ?_ (hnopoll hash poll')
          rw [hrest]
          exact List.mem_append_right _ (List.mem_cons_self ..)
    · intro pre envelope reply' post hsplit hstatus _
      cases eq_nil_of_send_split hnil hsplit
      rcases haccepted with h | h <;> cases h.symm.trans hstatus
    · intro pre envelope reply' post hsplit hstatus
      cases eq_nil_of_send_split hnil hsplit
      rcases haccepted with h | h <;> cases h.symm.trans hstatus

/-- A submission that was refused, for the moment or for good: the loop polls for it, finds
nothing, and reports that it failed on-chain. -/
theorem refusal_awaited :
    ∃ t, ((samplePipeline 4).executeWithRetry sampleCrates (sampleRemoteTask 10)
        .secondary).Returns t () ∧ (submissions t).length = 1 ∧
      ∀ status, status = .tryAgainLater ∨ status = .error →
        AnsweredBy (fun _ => ⟨status, "a0"⟩) t ∧
          ¬ RoutesByStatus (samplePipeline 4) (sampleRemoteTask 10)
            (fun _ => ⟨status, "a0"⟩) t := by
  have hhash : submissionResult (.json none ⟨some "a0"⟩) = .ok "a0" := rfl
  have hpoll : pollResult (samplePipeline 4) "a0"
      ⟨1000000000, .json none ⟨some "NOT_FOUND", none, none⟩⟩ =
        .ok ⟨"a0", 0, false, some ""⟩ := rfl
  have htrace : AttemptsTrace sampleCrates (samplePipeline 4) (sampleRemoteTask 10) .secondary 0
      (samplePipeline 4).retryBackoffInitial 5 _ :=
    .accepted hhash (.failedOnChain hpoll rfl)
  refine ⟨_, htrace.returns, rfl, ?_⟩
  intro status hstatus
  constructor
  · intro n reply hreply
    match n, hreply with
    | 0, hreply => exact (Option.some.inj hreply).symm
    | n + 1, hreply => cases hreply
  · intro h
    obtain ⟨n, -, -, haccepted⟩ := h.waits [_] _ _ _ rfl
    have hrefused : ¬ status.IsAccepted := by
      rintro (rfl | rfl) <;> rcases hstatus with h | h <;> cases h
    exact hrefused haccepted

/-- A submission that is pending. -/
theorem routes_by_status_sample :
    ∃ t, ((samplePipeline 4).executeWithRetry sampleCrates (sampleRemoteTask 10)
        .secondary).Returns t () ∧
      RoutesByStatus (samplePipeline 4) (sampleRemoteTask 10) (fun _ => ⟨.pending, "a0"⟩) t := by
  have hhash : submissionResult (.json none ⟨some "a0"⟩) = .ok "a0" := rfl
  have hpoll : pollResult (samplePipeline 4) "a0"
      ⟨1000000000, .json none ⟨some "SUCCESS", none, none⟩⟩ = .ok ⟨"a0", 0, true, none⟩ := rfl
  have htrace : AttemptsTrace sampleCrates (samplePipeline 4) (sampleRemoteTask 10) .secondary 0
      (samplePipeline 4).retryBackoffInitial 5 _ :=
    .accepted hhash (.confirmed (some 1700000000) hpoll rfl)
  refine ⟨_, htrace.returns, ?_⟩
  refine (routes_by_status_iff sampleCrates _ _ .secondary _ _ htrace.returns ?_).2 (Or.inl rfl)
  intro n reply hreply
  match n, hreply with
  | 0, hreply => exact (Option.some.inj hreply).symm
  | n + 1, hreply => cases hreply

end ChronosKeeper.Engine
