import ChronosKeeper.Engine.Attempts
import ChronosKeeper.Engine.Backoff
import ChronosKeeper.Engine.InFlight

/-!
# The retry loop

`RetriesAsConfigured` is what the retry policy asks of a complete trace of `execute_with_retry`:
how often it submits, that it submits again only after a transient failure and after the
exponential back-off, and that only a confirmed success is recorded. Under an accepted
configuration the loop always ends, and each of its traces is of that kind (`retry_trace`).
-/

set_option autoImplicit false

namespace ChronosKeeper.Engine

open ChronosKeeper.Foundations

/-- The pipeline as `main` builds it from the configuration. -/
def ExecutionPipeline.ofConfig (cfg : EngineConfig) (keeperAddress : String)
    (signingKeyBytes : Anchor.BytesN 32) : ExecutionPipeline where
  keeperAddress := keeperAddress
  signingKeyBytes := signingKeyBytes
  anchorContractAddress := cfg.anchorContractAddress
  confirmationTimeout := cfg.confirmationTimeout
  retryBackoffInitial := cfg.retryBackoffInitial
  retryBackoffMax := cfg.retryBackoffMax
  maxRetries := cfg.maxRetries

/-! ## What is read off a trace -/

/-- The reply to a submission. -/
def submissionReply : EngineEvent → Option (HttpReply SendTxResult)
  | ⟨.postSendTransaction _, reply⟩ => some reply
  | _ => none

/-- The replies to the submissions of a trace. -/
def submissions (t : List EngineEvent) : List (HttpReply SendTxResult) :=
  t.filterMap submissionReply

/-- The submission failed and may be repeated. -/
def Transient (reply : HttpReply SendTxResult) : Prop :=
  ∃ e, submissionResult reply = .error (.transient e)

/-- The submission was accepted, with this hash. -/
def Accepted (reply : HttpReply SendTxResult) (hash : TxHash) : Prop :=
  submissionResult reply = .ok hash

/-- The poll shows that the transaction succeeded. -/
def Confirms (pipeline : ExecutionPipeline) (hash : TxHash)
    (poll : Timed (HttpReply GetTxResult)) : Prop :=
  ∃ result, pollResult pipeline hash poll = .ok result ∧ result.success = true

/-- The timestamps stored in a trace. -/
def storedTs (t : List EngineEvent) : List I64 :=
  t.filterMap fun e => match e.op with
    | .storeLastConfirmedTs ts => some ts
    | _ => none

/-! ## The policy -/

/-- The retry policy, for a complete trace of the loop. -/
structure RetriesAsConfigured (pipeline : ExecutionPipeline) (t : List EngineEvent) : Prop where
  /-- It submits between once and `max_retries + 1` times. -/
  attempts : 1 ≤ (submissions t).length ∧
    (submissions t).length ≤ pipeline.maxRetries.val.toNat + 1
  /-- Whatever is followed by another submission failed transiently. -/
  transient : ∀ reply ∈ (submissions t).dropLast, Transient reply
  /-- At most one submission is accepted: none is followed by another one. -/
  accepted : ∀ pre reply post hash, submissions t = pre ++ reply :: post → Accepted reply hash →
    post = []
  /-- Between two submissions, the first of them the number `k + 1`, it logs and sleeps for the
  initial back-off times `2 ^ k`, or the cap if that is less. -/
  backoff : ∀ pre mid post envelope reply envelope' reply',
    t = pre ++ ⟨.postSendTransaction envelope, reply⟩ ::
      (mid ++ ⟨.postSendTransaction envelope', reply'⟩ :: post) →
    submissions mid = [] → Transient reply ∧
      ∃ entry d, mid = [⟨.log entry, ()⟩, ⟨.sleep d, ()⟩] ∧
        d.nanos = min (pipeline.retryBackoffInitial.nanos * 2 ^ (submissions pre).length)
          pipeline.retryBackoffMax.nanos
  /-- The timestamp is stored at most once. -/
  stored : (storedTs t).length ≤ 1
  /-- It is stored right after an accepted submission whose poll shows success. -/
  confirmed : ∀ pre ts post, t = pre ++ ⟨.storeLastConfirmedTs ts, ()⟩ :: post →
    ∃ pre' envelope reply hash poll elapsed,
      pre = pre' ++ [⟨.postSendTransaction envelope, reply⟩, ⟨.postGetTransaction hash, poll⟩,
        ⟨.unixTime, elapsed⟩] ∧ Accepted reply hash ∧ Confirms pipeline hash poll

/-! ## Counting -/

variable {crates : Crates} {pipeline : ExecutionPipeline} {task : RemoteTask}
  {role : ExecutionRole} {hash : TxHash} {attempt left k : Nat} {backoff : Duration}
  {t : List EngineEvent}

theorem submissions_send {envelope : String} {reply : HttpReply SendTxResult} :
    submissions (⟨.postSendTransaction envelope, reply⟩ :: t) = reply :: submissions t := rfl

theorem send_not_mem {envelope : String} {reply : HttpReply SendTxResult}
    (h : submissions t = []) : ⟨.postSendTransaction envelope, reply⟩ ∉ t := by
  intro hmem
  have hsome := List.filterMap_eq_nil_iff.1 h _ hmem
  cases hsome

/-- The first event is the only submission. -/
theorem eq_nil_of_send_split {e : EngineEvent} {pre post : List EngineEvent} {envelope : String}
    {reply : HttpReply SendTxResult} (ht : submissions t = [])
    (h : e :: t = pre ++ ⟨.postSendTransaction envelope, reply⟩ :: post) : pre = [] := by
  cases pre with
  | nil => rfl
  | cons e' pre =>
      have hmem : (⟨.postSendTransaction envelope, reply⟩ : EngineEvent) ∈ t := by
        rw [(List.cons.inj h).2]
        exact List.mem_append_right _ (List.mem_cons_self ..)
      exact absurd hmem (send_not_mem ht)

theorem AwaitTrace.submissions_eq_nil (h : AwaitTrace pipeline task role hash t) :
    submissions t = [] := by
  cases h <;> rfl

theorem AttemptsTrace.exists_send
    (h : AttemptsTrace crates pipeline task role attempt backoff left t) :
    ∃ reply t', t =
      ⟨.postSendTransaction (pipeline.buildSignedTransaction crates task role), reply⟩ :: t' := by
  cases h <;> exact ⟨_, _, rfl⟩

theorem AttemptsTrace.length_submissions
    (h : AttemptsTrace crates pipeline task role attempt backoff left t) :
    1 ≤ (submissions t).length ∧ (submissions t).length ≤ left + 1 := by
  induction h with
  | accepted _ ht =>
      rw [submissions_send, ht.submissions_eq_nil]
      exact ⟨le_refl 1, by simp⟩
  | dropped _ => exact ⟨le_refl 1, Nat.le_add_left 1 _⟩
  | exhausted _ => exact ⟨le_refl 1, le_refl 1⟩
  | retried _ _ _ ih =>
      obtain ⟨hpos, hle⟩ := ih
      constructor
      · exact Nat.le_add_left 1 _
      · exact Nat.succ_le_succ hle

/-- Whatever is not the last submission failed transiently. -/
theorem AttemptsTrace.transient
    (h : AttemptsTrace crates pipeline task role attempt backoff left t) :
    ∀ reply ∈ (submissions t).dropLast, Transient reply := by
  induction h with
  | accepted _ ht =>
      rw [submissions_send, ht.submissions_eq_nil]
      exact fun _ hmem => absurd hmem List.not_mem_nil
  | dropped _ => exact fun _ hmem => absurd hmem List.not_mem_nil
  | exhausted _ => exact fun _ hmem => absurd hmem List.not_mem_nil
  | @retried _ _ _ _ reply e t hreply _ ht ih =>
      -- the head failed transiently, and the rest is the trace of the next attempts
      intro r hr
      have hne : submissions t ≠ [] := List.ne_nil_of_length_pos ht.length_submissions.1
      rw [show submissions _ = reply :: submissions t from rfl,
        List.dropLast_cons_of_ne_nil hne] at hr
      rcases List.mem_cons.1 hr with rfl | hr
      · exact ⟨e, hreply⟩
      · exact ih r hr

theorem mem_dropLast_of_ne_nil {α : Type} {pre post : List α} {a : α} (h : post ≠ []) :
    a ∈ (pre ++ a :: post).dropLast := by
  rw [List.dropLast_append_of_ne_nil (List.cons_ne_nil a post), List.dropLast_cons_of_ne_nil h]
  exact List.mem_append_right _ (List.mem_cons_self ..)

theorem not_transient_of_accepted {reply : HttpReply SendTxResult} (h : Accepted reply hash) :
    ¬ Transient reply := by
  rintro ⟨e, he⟩
  rw [show submissionResult reply = .ok hash from h] at he
  cases he

/-! ## The back-off -/

/-- By induction on the attempts, of which the first has the number `k + 1`. -/
theorem AttemptsTrace.sleeps
    (hrange : BackoffRange pipeline.retryBackoffInitial pipeline.retryBackoffMax)
    (h : AttemptsTrace crates pipeline task role attempt backoff left t)
    (hk : IsBackoff pipeline.retryBackoffInitial pipeline.retryBackoffMax k backoff)
    {pre mid post : List EngineEvent} {envelope envelope' : String}
    {reply reply' : HttpReply SendTxResult}
    (ht : t = pre ++ ⟨.postSendTransaction envelope, reply⟩ ::
      (mid ++ ⟨.postSendTransaction envelope', reply'⟩ :: post))
    (hmid : submissions mid = []) :
    Transient reply ∧ ∃ entry d, mid = [⟨.log entry, ()⟩, ⟨.sleep d, ()⟩] ∧
      IsBackoff pipeline.retryBackoffInitial pipeline.retryBackoffMax
        (k + (submissions pre).length) d := by
  -- A trace with a single submission has no second one.
  have hsingle : ∀ {pre : List EngineEvent} {e : EngineEvent} {t : List EngineEvent},
      submissions t = [] → e :: t = pre ++ ⟨.postSendTransaction envelope, reply⟩ ::
        (mid ++ ⟨.postSendTransaction envelope', reply'⟩ :: post) → False := by
    intro pre e t hnil heq
    obtain rfl := eq_nil_of_send_split hnil heq
    cases heq
    exact send_not_mem hnil (List.mem_append_right _ (List.mem_cons_self ..))
  induction h generalizing k pre with
  | accepted _ hawait => exact (hsingle hawait.submissions_eq_nil ht).elim
  | dropped _ => exact (hsingle rfl ht).elim
  | exhausted _ => exact (hsingle rfl ht).elim
  | @retried _ _ backoff doubled _ e t hreply hdouble htail ih =>
      match pre, ht with
      | [], ht =>
          -- The first submission: what follows it is the log entry, the sleep and the next one.
          obtain ⟨hhead, hrest⟩ := List.cons.inj ht
          cases hhead
          match mid, hrest with
          | [], hrest => cases hrest
          | [_], hrest => cases hrest
          | [_, _], hrest =>
              cases hrest
              exact ⟨⟨_, hreply⟩, _, backoff, rfl, hk⟩
          | _ :: _ :: e₃ :: mid, hrest =>
              cases hrest
              obtain ⟨_, _, hsend⟩ := htail.exists_send
              cases hsend
              cases hmid
      | [_], ht => cases ht
      | [_, _], ht => cases ht
      | _ :: _ :: _ :: pre, ht =>
          cases ht
          obtain ⟨doubled', hdouble', hk'⟩ := hk.double hrange
          rw [hdouble] at hdouble'
          cases hdouble'
          obtain ⟨htransient, entry, d, hsplit, hd⟩ := ih hk' rfl
          refine ⟨htransient, entry, d, hsplit, ?_⟩
          rw [show k + (submissions _).length = k + 1 + (submissions pre).length from
            (congrArg (k + ·) (Nat.add_comm _ 1)).trans (Nat.add_assoc k 1 _).symm]
          exact hd

/-! ## The confirmation -/

theorem AttemptsTrace.length_storedTs
    (h : AttemptsTrace crates pipeline task role attempt backoff left t) :
    (storedTs t).length ≤ 1 := by
  induction h with
  | accepted _ hawait =>
      cases hawait with
      | confirmed => exact le_refl 1
      | failedOnChain => exact Nat.zero_le 1
      | timedOut => exact Nat.zero_le 1
      | error => exact Nat.zero_le 1
  | dropped => exact Nat.zero_le 1
  | exhausted => exact Nat.zero_le 1
  | retried _ _ _ ih => exact ih

/-- By induction on the attempts: a timestamp is stored after the one that is accepted. -/
theorem AttemptsTrace.confirmed
    (h : AttemptsTrace crates pipeline task role attempt backoff left t)
    {pre post : List EngineEvent} {ts : I64}
    (ht : t = pre ++ ⟨.storeLastConfirmedTs ts, ()⟩ :: post) :
    ∃ pre' envelope reply hash poll elapsed,
      pre = pre' ++ [⟨.postSendTransaction envelope, reply⟩, ⟨.postGetTransaction hash, poll⟩,
        ⟨.unixTime, elapsed⟩] ∧ Accepted reply hash ∧ Confirms pipeline hash poll := by
  have hnone : ∀ {pre t : List EngineEvent}, storedTs t = [] →
      t = pre ++ ⟨.storeLastConfirmedTs ts, ()⟩ :: post → False := by
    rintro pre t hnil rfl
    have hsome := List.filterMap_eq_nil_iff.1 hnil _
      (List.mem_append_right pre (List.mem_cons_self ..))
    cases hsome
  induction h generalizing pre with
  | accepted hreply hawait =>
      cases hawait with
      | confirmed elapsed hpoll hsuccess =>
          match pre, ht with
          | [], ht => cases ht
          | [_], ht => cases ht
          | [_, _], ht => cases ht
          | [_, _, _], ht =>
              cases ht
              exact ⟨[], _, _, _, _, elapsed, rfl, hreply, _, hpoll, hsuccess⟩
          | [_, _, _, _], ht => cases ht
          | _ :: _ :: _ :: _ :: _ :: pre, ht =>
              simp at ht
      | failedOnChain => exact (hnone rfl ht).elim
      | timedOut => exact (hnone rfl ht).elim
      | error => exact (hnone rfl ht).elim
  | dropped => exact (hnone rfl ht).elim
  | exhausted => exact (hnone rfl ht).elim
  | retried _ _ _ ih =>
      match pre, ht with
      | [], ht => cases ht
      | [_], ht => cases ht
      | [_, _], ht => cases ht
      | _ :: _ :: _ :: pre, ht =>
          cases ht
          obtain ⟨pre', envelope, reply, hash, poll, elapsed, rfl, h⟩ := ih rfl
          exact ⟨_ :: _ :: _ :: pre', envelope, reply, hash, poll, elapsed, rfl, h⟩

/-! ## The loop -/

/-- No doubling of the back-off overflows, so the loop never aborts. -/
theorem all_attemptsFrom_ne_abort
    (hrange : BackoffRange pipeline.retryBackoffInitial pipeline.retryBackoffMax)
    (hk : IsBackoff pipeline.retryBackoffInitial pipeline.retryBackoffMax k backoff) :
    (pipeline.attemptsFrom crates task role attempt backoff left).All (· ≠ .abort) := by
  have hP : CoversWork (· ≠ .abort) := fun _ _ h => h
  apply all_attemptsFrom hP
    (fun backoff => ∃ k, IsBackoff pipeline.retryBackoffInitial pipeline.retryBackoffMax k backoff)
  · -- an overflow contradicts the range of the back-off
    rintro backoff ⟨k, hk⟩ hoverflow
    obtain ⟨doubled, hdouble, -⟩ := hk.double hrange
    cases hoverflow.symm.trans hdouble
  · rintro backoff doubled ⟨k, hk⟩ hdoubled
    obtain ⟨doubled', hdouble, hnext⟩ := hk.double hrange
    cases hdoubled.symm.trans hdouble
    exact ⟨k + 1, hnext⟩
  · exact ⟨k, hk⟩

theorem retriesAsConfigured
    (hrange : BackoffRange pipeline.retryBackoffInitial pipeline.retryBackoffMax)
    (ht : (pipeline.executeWithRetry crates task role).Returns t ()) :
    RetriesAsConfigured pipeline t := by
  have h := attemptsTrace_of_returns ht
  refine { attempts := h.length_submissions, transient := h.transient, accepted := ?_,
           backoff := ?_, stored := h.length_storedTs, confirmed := fun _ _ _ => h.confirmed }
  · intro pre reply post hash hsplit haccepted
    -- otherwise the accepted one was not the last, and has failed transiently
    by_contra hpost
    refine not_transient_of_accepted haccepted (h.transient reply ?_)
    rw [hsplit]
    exact mem_dropLast_of_ne_nil hpost
  · intro pre mid post envelope reply envelope' reply' hsplit hmid
    obtain ⟨htransient, entry, d, hd, hnanos⟩ :=
      h.sleeps hrange (isBackoff_zero hrange) hsplit hmid
    refine ⟨htransient, entry, d, hd, ?_⟩
    rw [← Nat.zero_add (submissions pre).length]
    exact hnanos

/-- Under an accepted configuration the loop ends in every environment that answers its
operations, and each of its complete traces follows the policy. -/
theorem retry_trace (env : Environment) (cfg : EngineConfig) (hcfg : fromEnv env = .ok cfg)
    (crates : Crates) (keeperAddress : String) (signingKeyBytes : Anchor.BytesN 32)
    (task : RemoteTask) (role : ExecutionRole) :
    let pipeline := ExecutionPipeline.ofConfig cfg keeperAddress signingKeyBytes
    (∀ (σ : Type) (answer : (op : EngineOp) → σ → Option (op.Reply × σ)),
      (∀ op s, op ≠ .abort → (answer op s).isSome) →
        ∀ s, ((pipeline.executeWithRetry crates task role).run answer s).isSome) ∧
      ∀ t, (pipeline.executeWithRetry crates task role).Returns t () →
        RetriesAsConfigured pipeline t := by
  intro pipeline
  have hrange : BackoffRange pipeline.retryBackoffInitial pipeline.retryBackoffMax :=
    backoffRange_of_fromEnv hcfg
  constructor
  · intro σ answer hanswer s
    exact Program.isSome_run_of_all (all_attemptsFrom_ne_abort hrange (isBackoff_zero hrange))
      hanswer s
  · intro t ht
    exact retriesAsConfigured hrange ht

/-- A transient failure, a sleep of one second, and a submission that is confirmed. -/
theorem retry_trace_sample :
    let pipeline := ExecutionPipeline.ofConfig (sampleSettings.toConfig none) "G4" sampleSigningKey
    ∃ t, (pipeline.executeWithRetry sampleCrates (sampleRemoteTask 10) .secondary).Returns t () ∧
      (submissions t).length = 2 ∧ (storedTs t).length = 1 ∧ RetriesAsConfigured pipeline t := by
  intro pipeline
  have hretry : submissionResult (.httpError 503) = .error (.transient .rpcTimeout) := rfl
  have hhash : submissionResult (.json none ⟨some "a0"⟩) = .ok "a0" := rfl
  have hpoll : pollResult pipeline "a0" ⟨1000000000, .json none ⟨some "SUCCESS", none, none⟩⟩ =
      .ok ⟨"a0", 0, true, none⟩ := rfl
  have hrange : BackoffRange pipeline.retryBackoffInitial pipeline.retryBackoffMax :=
    ⟨by decide, by decide⟩
  obtain ⟨doubled, hdouble, -⟩ := (isBackoff_zero hrange).double hrange
  have htrace : AttemptsTrace sampleCrates pipeline (sampleRemoteTask 10) .secondary 0
      pipeline.retryBackoffInitial (4 + 1) _ :=
    .retried hretry hdouble (.accepted hhash (.confirmed (some 1700000000) hpoll rfl))
  refine ⟨_, htrace.returns, rfl, rfl, ?_⟩
  exact (retry_trace _ _ fromEnv_sampleEnvironment sampleCrates "G4" sampleSigningKey
    (sampleRemoteTask 10) .secondary).2 _ htrace.returns

end ChronosKeeper.Engine
