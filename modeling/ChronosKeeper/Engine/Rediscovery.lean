import ChronosKeeper.Engine.Visits

/-!
# Submissions within a grace period

Within the grace period of a task, a visit submits it as secondary, and again after a transient
failure as the retry policy has it. The engine forgets the task when the visit is over, so a later
visit submits it once more, whatever became of the one before.

`NeverResubmits` says that nothing is submitted after a failure: neither by the visit itself nor by
a later one. It holds exactly where no visit retries and each one that is followed by another is
confirmed at once (`window_submissions`).
-/

set_option autoImplicit false

namespace ChronosKeeper.Engine

open ChronosKeeper.Foundations

variable {crates : Crates} {p : Profile} {pipeline : ExecutionPipeline} {task : RemoteTask}
  {role : ExecutionRole} {t : List EngineEvent} {s : InFlightSet}

/-! ## Failures -/

/-- The submission is accepted, and the poll that follows shows success. -/
def Succeeds (pipeline : ExecutionPipeline) (reply : HttpReply SendTxResult)
    (post : List EngineEvent) : Prop :=
  ∃ hash poll post', post = ⟨.postGetTransaction hash, poll⟩ :: post' ∧ Accepted reply hash ∧
    Confirms pipeline hash poll

/-- A submission of the envelope fails, for whatever reason, and `post` comes after it. -/
def Fails (pipeline : ExecutionPipeline) (envelope : String) (t post : List EngineEvent) : Prop :=
  ∃ pre reply, t = pre ++ ⟨.postSendTransaction envelope, reply⟩ :: post ∧
    ¬ Succeeds pipeline reply post

/-- The reply to the first submission is a transient failure. -/
def FirstTransient (t : List EngineEvent) : Prop :=
  ∃ reply, (submissions t).head? = some reply ∧ Transient reply

/-- The first submission succeeds. -/
def ConfirmedAtOnce (pipeline : ExecutionPipeline) (t : List EngineEvent) : Prop :=
  ∃ pre envelope reply post, t = pre ++ ⟨.postSendTransaction envelope, reply⟩ :: post ∧
    submissions pre = [] ∧ Succeeds pipeline reply post

/-- Nothing is submitted for the task after one of its submissions as secondary has failed: not by
the same visit, and not by a later one. -/
structure NeverResubmits (crates : Crates) (pipeline : ExecutionPipeline) (taskIdHex : String)
    (visits : List Visit) : Prop where
  within : ∀ v ∈ visits, v.task.taskIdHex = taskIdHex → ∀ post,
    Fails pipeline (pipeline.buildSignedTransaction crates v.task .secondary) v.trace post →
      submissions post = []
  later : ∀ before v between v' after, visits = before ++ v :: (between ++ v' :: after) →
    v.task.taskIdHex = taskIdHex → v'.task.taskIdHex = taskIdHex →
      (∃ post, Fails pipeline (pipeline.buildSignedTransaction crates v.task .secondary) v.trace
        post) → submissions v'.trace = []

/-- The visit is to the task, and this node is not the designated keeper. -/
def IsSecondary (pipeline : ExecutionPipeline) (taskIdHex : String) (v : Visit) : Prop :=
  v.task.taskIdHex = taskIdHex ∧ v.task.designatedKeeper ≠ pipeline.keeperAddress

/-- No visit as secondary has to retry, and each one that is followed by another is confirmed at
once. -/
structure NeedsNoRetry (pipeline : ExecutionPipeline) (taskIdHex : String)
    (visits : List Visit) : Prop where
  retries : ∀ v ∈ visits, IsSecondary pipeline taskIdHex v → FirstTransient v.trace →
    pipeline.maxRetries.val.toNat = 0
  confirmed : ∀ before v between v' after, visits = before ++ v :: (between ++ v' :: after) →
    IsSecondary pipeline taskIdHex v → IsSecondary pipeline taskIdHex v' →
      ConfirmedAtOnce pipeline v.trace

/-! ## One visit -/

/-- The loop submits once exactly if the first failure is not a transient one that it retries. -/
theorem AttemptsTrace.length_eq_one_iff {attempt left : Nat} {backoff : Duration}
    (h : AttemptsTrace crates pipeline task role attempt backoff left t) :
    (submissions t).length = 1 ↔ (FirstTransient t → left = 0) := by
  cases h with
  | accepted hreply hawait =>
      rw [submissions_send, hawait.submissions_eq_nil]
      -- an accepted submission is the only one, and no transient failure
      refine iff_of_true rfl ?_
      rintro ⟨reply, hfirst, htransient⟩
      cases hfirst
      exact absurd htransient (not_transient_of_accepted hreply)
  | dropped hreply =>
      -- neither is one that was refused for good
      refine iff_of_true rfl ?_
      rintro ⟨reply, hfirst, e, he⟩
      cases hfirst
      rw [hreply] at he
      cases he
  | exhausted hreply => exact iff_of_true rfl fun _ => rfl
  | @retried _ _ _ _ _ _ t hreply _ ht =>
      -- a retry submits at least once more
      refine iff_of_false ?_ fun h => absurd (h ⟨_, rfl, _, hreply⟩) (Nat.succ_ne_zero _)
      have hlength : 1 ≤ (submissions t).length := ht.length_submissions.1
      intro h
      have hsum : (submissions t).length + 1 = 1 := h
      omega

theorem SubmitsAs.length_eq_one_iff (h : SubmitsAs crates pipeline task role t) :
    (submissions t).length = 1 ↔ (FirstTransient t → pipeline.maxRetries.val.toNat = 0) := by
  obtain ⟨t', hsubmissions, hattempts⟩ := h.exists_attempts
  unfold FirstTransient
  rw [hsubmissions]
  exact hattempts.length_eq_one_iff

/-- The first submission, with what comes before and after it. -/
theorem SubmitsAs.exists_first (h : SubmitsAs crates pipeline task role t) :
    ∃ pre reply post, t = pre ++
        ⟨.postSendTransaction (pipeline.buildSignedTransaction crates task role), reply⟩ :: post ∧
      submissions pre = [] := by
  obtain ⟨pre, t', post, rfl, hpre, -, hattempts⟩ := h
  obtain ⟨reply, t'', rfl⟩ := hattempts.exists_send
  exact ⟨pre, reply, t'' ++ post, rfl, hpre⟩

theorem submissions_of_cons {e : EngineEvent} (h : submissions (e :: t) = []) :
    submissions t = [] :=
  List.filterMap_eq_nil_iff.2 fun e' he' =>
    List.filterMap_eq_nil_iff.1 h e' (List.mem_cons_of_mem _ he')

theorem first_send_unique {pre₁ pre₂ post₁ post₂ : List EngineEvent} {e₁ e₂ : String}
    {r₁ r₂ : HttpReply SendTxResult}
    (h : pre₁ ++ (⟨.postSendTransaction e₁, r₁⟩ : EngineEvent) :: post₁ =
      pre₂ ++ ⟨.postSendTransaction e₂, r₂⟩ :: post₂)
    (h₁ : submissions pre₁ = []) (h₂ : submissions pre₂ = []) : r₁ = r₂ ∧ post₁ = post₂ := by
  induction pre₁ generalizing pre₂ with
  | nil =>
      cases pre₂ with
      | nil =>
          cases h
          exact ⟨rfl, rfl⟩
      | cons e pre₂ =>
          -- the first submission of the left side stands in the prefix of the right side
          cases h
          cases h₂
  | cons e pre₁ ih =>
      cases pre₂ with
      | nil =>
          cases h
          cases h₁
      | cons e' pre₂ =>
          obtain ⟨rfl, hrest⟩ := List.cons.inj h
          exact ih hrest (submissions_of_cons h₁) (submissions_of_cons h₂)

theorem length_submissions_split {pre post : List EngineEvent} {envelope : String}
    {reply : HttpReply SendTxResult} :
    (submissions (pre ++ ⟨.postSendTransaction envelope, reply⟩ :: post)).length =
      (submissions pre).length + ((submissions post).length + 1) := by
  rw [submissions_append, submissions_send, List.length_append, List.length_cons]

/-- A visit submits nothing after its own failures exactly if it has no transient failure to
retry. -/
theorem SubmitsAs.within_iff (h : SubmitsAs crates pipeline task role t) :
    (∀ post, Fails pipeline (pipeline.buildSignedTransaction crates task role) t post →
      submissions post = []) ↔ (FirstTransient t → pipeline.maxRetries.val.toNat = 0) := by
  rw [← h.length_eq_one_iff]
  constructor
  · intro hwithin
    obtain ⟨pre, reply, post, rfl, hpre⟩ := h.exists_first
    -- after a success nothing is retried, and after a failure nothing may follow
    have hpost : submissions post = [] := by
      by_cases hsucceeds : Succeeds pipeline reply post
      · obtain ⟨hash, poll, post', rfl, haccepted, -⟩ := hsucceeds
        by_contra hpost
        exact not_transient_of_accepted haccepted (h.transient rfl hpost)
      · exact hwithin post ⟨pre, reply, rfl, hsucceeds⟩
    rw [length_submissions_split, hpre, hpost]
    rfl
  · rintro hlength post ⟨pre, reply, rfl, -⟩
    rw [length_submissions_split] at hlength
    exact List.eq_nil_of_length_eq_zero (by omega)

/-- A visit has no failure exactly if its first submission succeeds. -/
theorem SubmitsAs.not_fails_iff (h : SubmitsAs crates pipeline task role t) :
    (¬ ∃ post, Fails pipeline (pipeline.buildSignedTransaction crates task role) t post) ↔
      ConfirmedAtOnce pipeline t := by
  constructor
  · intro hnever
    obtain ⟨pre, reply, post, ht, hpre⟩ := h.exists_first
    refine ⟨pre, _, reply, post, ht, hpre, ?_⟩
    by_contra hsucceeds
    exact hnever ⟨post, pre, reply, ht, hsucceeds⟩
  · rintro ⟨pre, envelope, reply, post, rfl, hpre, hsucceeds⟩ ⟨post', pre', reply', ht', hfails⟩
    have hpost : submissions post = [] := by
      obtain ⟨hash, poll, post', rfl, haccepted, -⟩ := hsucceeds
      by_contra hpost
      exact not_transient_of_accepted haccepted (h.transient rfl hpost)
    -- The submission that succeeds is the only one, so it is the one that fails.
    have hpre' : submissions pre' = [] := by
      have hlength := congrArg (fun t => (submissions t).length) ht'
      simp only [length_submissions_split, hpre, hpost, List.length_nil] at hlength
      exact List.eq_nil_of_length_eq_zero (by omega)
    obtain ⟨rfl, rfl⟩ := first_send_unique ht' hpre hpre'
    exact hfails hsucceeds

/-- A visit that submits in another role has no failure as secondary. -/
theorem SubmitsAs.not_fails_secondary (h : SubmitsAs crates pipeline task .postGrace t)
    {post : List EngineEvent} :
    ¬ Fails pipeline (pipeline.buildSignedTransaction crates task .secondary) t post := by
  rintro ⟨pre, reply, rfl, -⟩
  have henvelope := h.envelope (List.mem_append_right pre (List.mem_cons_self ..))
  cases ExecutionPipeline.buildSignedTransaction_injective henvelope

theorem not_fails_of_submissions_eq_nil (h : submissions t = []) {envelope : String}
    {post : List EngineEvent} : ¬ Fails pipeline envelope t post := by
  rintro ⟨pre, reply, rfl, -⟩
  exact send_not_mem h (List.mem_append_right pre (List.mem_cons_self ..))

/-! ## Rounds -/

/-- The visit as secondary at a ledger, with the trace of its attempts. -/
def secondaryVisit (crates : Crates) (pipeline : ExecutionPipeline) (task : RemoteTask)
    (round : U32 × List EngineEvent) : Visit :=
  ⟨task, round.1, secondaryTrace crates pipeline task round.1 round.2⟩

/-- A query that finds this task only. -/
def foundAlone (task : RemoteTask) (currentLedger : U32) : Received :=
  .advance currentLedger (.tasks [task])

/-- At whatever ledgers of the grace period the task is found, and whatever becomes of the attempts
at each of them, the loop has such a run. By induction on the rounds. -/
theorem exists_runTrace {rounds : List (U32 × List EngineEvent)}
    (hfits : task.nextAllowedExecution.val + 50 ≤ 4294967295)
    (hkeeper : task.designatedKeeper ≠ pipeline.keeperAddress)
    (hs : parseTaskId crates task.taskIdHex ∉ s)
    (hwindow : ∀ round ∈ rounds, task.nextAllowedExecution.val < round.1.val ∧
      round.1.val ≤ task.nextAllowedExecution.val + 50)
    (hattempts : ∀ round ∈ rounds, AttemptsTrace crates pipeline task .secondary 0
      pipeline.retryBackoffInitial pipeline.maxRetries.val.toNat round.2) :
    ∃ t, RunTrace crates p (TaskDiscovery.wired pipeline)
        (rounds.map fun round => foundAlone task round.1)
        (rounds.map (secondaryVisit crates pipeline task)) t ∧
      Answered InFlightSet.Answers t s s := by
  induction rounds with
  | nil => exact ⟨[], .nil, .nil s⟩
  | cons round rounds ih =>
      -- the later rounds first, then this one before them
      obtain ⟨t, hrun, hanswered⟩ := ih
        (fun round hround => hwindow round (List.mem_cons_of_mem _ hround))
        fun round hround => hattempts round (List.mem_cons_of_mem _ hround)
      have hround : round ∈ round :: rounds := List.mem_cons_self ..
      have hvisit := returns_secondaryTrace (p := p) (hwindow round hround).1
        (hwindow round hround).2 hfits hkeeper (hattempts round hround)
      have hlog : (TaskDiscovery.logDiscovered round.1 [task]).Returns
          [⟨.log (.discoveredTasks round.1 1), ()⟩] () := returns_log_iff.2 rfl
      refine ⟨_, .advance (.tasks hlog (.cons hvisit .nil)) hrun, ?_⟩
      refine .cons (rfl : s = s) (answered_append_iff.2 ⟨s, ?_, hanswered⟩)
      rw [List.append_nil]
      exact answered_secondaryTrace hs (hattempts round hround)

/-- A transient failure, a retry that the contract rejects, and no more at this ledger. -/
def sampleRejected : List EngineEvent :=
  let envelope := (samplePipeline 4).buildSignedTransaction sampleCrates (sampleRemoteTask 10)
    .secondary
  [⟨.postSendTransaction envelope, .httpError 503⟩,
    ⟨.log (.retrying sampleTaskIdHex .rpcTimeout 0 1), ()⟩,
    ⟨.sleep (samplePipeline 4).retryBackoffInitial, ()⟩,
    ⟨.postSendTransaction envelope, .json (some "rejected") ⟨none⟩⟩,
    ⟨.log (.droppingTask sampleTaskIdHex (.contractRejection "rejected")), ()⟩]

/-- A submission that is confirmed by the first poll. -/
def sampleConfirmed : List EngineEvent :=
  [⟨.postSendTransaction ((samplePipeline 4).buildSignedTransaction sampleCrates
      (sampleRemoteTask 10) .secondary), .json none ⟨some "a0"⟩⟩,
    ⟨.postGetTransaction "a0", ⟨1000000000, .json none ⟨some "SUCCESS", none, none⟩⟩⟩,
    ⟨.unixTime, some 1700000000⟩, ⟨.storeLastConfirmedTs 1700000000, ()⟩,
    ⟨.log (.executionConfirmed sampleTaskIdHex (sampleEncode 4) 0 "a0" .secondary), ()⟩]

theorem attemptsTrace_sampleRejected :
    AttemptsTrace sampleCrates (samplePipeline 4) (sampleRemoteTask 10) .secondary 0
      (samplePipeline 4).retryBackoffInitial (samplePipeline 4).maxRetries.val.toNat
      sampleRejected := by
  have hretry : submissionResult (.httpError 503) = .error (.transient .rpcTimeout) := rfl
  have hrejected : submissionResult (.json (some "rejected") ⟨none⟩) =
      .error (.nonTransient (.contractRejection "rejected")) := rfl
  have hdouble : (samplePipeline 4).retryBackoffInitial.double =
      some ⟨2000000000, by decide⟩ := rfl
  exact .retried hretry hdouble (.dropped hrejected)

theorem attemptsTrace_sampleConfirmed :
    AttemptsTrace sampleCrates (samplePipeline 4) (sampleRemoteTask 10) .secondary 0
      (samplePipeline 4).retryBackoffInitial (samplePipeline 4).maxRetries.val.toNat
      sampleConfirmed := by
  have hhash : submissionResult (.json none ⟨some "a0"⟩) = .ok "a0" := rfl
  have hpoll : pollResult (samplePipeline 4) "a0"
      ⟨1000000000, .json none ⟨some "SUCCESS", none, none⟩⟩ = .ok ⟨"a0", 0, true, none⟩ := rfl
  exact .accepted hhash (.confirmed (some 1700000000) hpoll rfl)

/-! ## The window -/

/-- A visit within the grace period. -/
def InWindow (T : U32) (v : Visit) : Prop :=
  v.task.nextAllowedExecution = T ∧ T.val < v.ledger.val ∧ v.ledger.val ≤ T.val + 50

/-- What a visit within the grace period submits, where its end does not overflow. -/
def SubmitsInWindow (crates : Crates) (pipeline : ExecutionPipeline) (v : Visit) : Prop :=
  (v.task.designatedKeeper = pipeline.keeperAddress ∧ submissions v.trace = []) ∨
    (v.task.designatedKeeper ≠ pipeline.keeperAddress ∧
      SubmitsAs crates pipeline v.task .secondary v.trace)

variable {taskIdHex : String} {visits : List Visit} {v : Visit} {T : U32}

theorem IsVisit.submitsInWindow
    (h : IsVisit crates p (TaskDiscovery.wired pipeline) ∅ v) (hwindow : InWindow T v)
    (hfits : T.val + 50 ≤ 4294967295) : SubmitsInWindow crates pipeline v := by
  obtain ⟨rfl, hopen, hend⟩ := hwindow
  exact submitsAs_of_inGrace (Finset.notMem_empty _) hopen hend hfits h.returns h.answered

theorem IsVisit.submitsAs_postGrace
    (h : IsVisit crates p (TaskDiscovery.wired pipeline) ∅ v) (hwindow : InWindow T v)
    (hoverflow : 4294967295 < T.val + 50) :
    SubmitsAs crates pipeline v.task .postGrace v.trace := by
  obtain ⟨rfl, hopen, -⟩ := hwindow
  exact submitsAs_of_overflow (Finset.notMem_empty _) hopen hoverflow h.returns h.answered

theorem SubmitsInWindow.submitsAs (h : SubmitsInWindow crates pipeline v)
    (hv : IsSecondary pipeline taskIdHex v) :
    SubmitsAs crates pipeline v.task .secondary v.trace := by
  rcases h with ⟨hkeeper, -⟩ | ⟨-, hsubmits⟩
  · exact absurd hkeeper hv.2
  · exact hsubmits

/-- By the kinds of the visits, one after the other. -/
theorem neverResubmits_iff
    (hvisits : ∀ v ∈ visits, v.task.taskIdHex = taskIdHex → SubmitsInWindow crates pipeline v) :
    NeverResubmits crates pipeline taskIdHex visits ↔
      NeedsNoRetry pipeline taskIdHex visits := by
  constructor
  · intro h
    constructor
    · intro v hv hsecondary
      have hsubmits := (hvisits v hv hsecondary.1).submitsAs hsecondary
      exact hsubmits.within_iff.1 (h.within v hv hsecondary.1)
    · intro before v between v' after hsplit hsecondary hsecondary'
      -- the later visit submits, so the earlier one has not failed
      have hsubmits := (hvisits v (by simp [hsplit]) hsecondary.1).submitsAs hsecondary
      have hsubmits' := (hvisits v' (by simp [hsplit]) hsecondary'.1).submitsAs hsecondary'
      apply hsubmits.not_fails_iff.1
      intro hfails
      have hnil := h.later before v between v' after hsplit hsecondary.1 hsecondary'.1 hfails
      exact List.ne_nil_of_length_pos hsubmits'.length_pos hnil
  · intro h
    constructor
    · intro v hv htask post hfails
      rcases hvisits v hv htask with ⟨-, hnil⟩ | ⟨hkeeper, hsubmits⟩
      · exact absurd hfails (not_fails_of_submissions_eq_nil hnil)
      · exact hsubmits.within_iff.2 (h.retries v hv ⟨htask, hkeeper⟩) post hfails
    · intro before v between v' after hsplit htask htask' hfails
      rcases hvisits v (by simp [hsplit]) htask with ⟨-, hnil⟩ | ⟨hkeeper, hsubmits⟩
      · obtain ⟨post, hfails⟩ := hfails
        exact absurd hfails (not_fails_of_submissions_eq_nil hnil)
      rcases hvisits v' (by simp [hsplit]) htask' with ⟨-, hnil⟩ | ⟨hkeeper', -⟩
      · exact hnil
      · -- both submit: the earlier one is confirmed at once, against its failure
        have hconfirmed := h.confirmed before v between v' after hsplit ⟨htask, hkeeper⟩
          ⟨htask', hkeeper'⟩
        exact absurd hfails (hsubmits.not_fails_iff.2 hconfirmed)

/-- What no visit submits as secondary, no visit submits again. -/
theorem neverResubmits_of_postGrace
    (hvisits : ∀ v ∈ visits, v.task.taskIdHex = taskIdHex →
      SubmitsAs crates pipeline v.task .postGrace v.trace) :
    NeverResubmits crates pipeline taskIdHex visits := by
  constructor
  · intro v hv htask post hfails
    exact absurd hfails (hvisits v hv htask).not_fails_secondary
  · rintro before v between v' after hsplit htask - ⟨post, hfails⟩
    exact absurd hfails (hvisits v (by simp [hsplit]) htask).not_fails_secondary

/-- In every run of the loop whose visits to a task are all within one grace period of it, each
visit submits again after a transient failure only, and at most `max_retries` times; each visit
as secondary submits, whatever came of those before; so nothing is submitted after a failure
exactly if no visit has a transient failure to retry, and each that is followed by another is
confirmed at once. Where the end of the grace period overflows, nothing is submitted as
secondary. -/
theorem window_submissions {events : List Received}
    (hrun : RunTrace crates p (TaskDiscovery.wired pipeline) events visits t)
    (hs : Answered InFlightSet.Answers t ∅ s)
    (hwindow : ∀ v ∈ visits, v.task.taskIdHex = taskIdHex → InWindow T v) :
    (∀ v ∈ visits, v.task.taskIdHex = taskIdHex →
      (submissions v.trace).length ≤ pipeline.maxRetries.val.toNat + 1 ∧
        ∀ reply ∈ (submissions v.trace).dropLast, Transient reply) ∧
      (T.val + 50 ≤ 4294967295 → ∀ v ∈ visits, IsSecondary pipeline taskIdHex v →
        SubmitsAs crates pipeline v.task .secondary v.trace ∧ submissions v.trace ≠ []) ∧
      (NeverResubmits crates pipeline taskIdHex visits ↔
        4294967295 < T.val + 50 ∨ NeedsNoRetry pipeline taskIdHex visits) := by
  have hvisits := hrun.isVisit hs
  rcases le_or_gt (T.val + 50) 4294967295 with hfits | hoverflow
  · -- every visit submits as secondary or not at all
    have hsubmits : ∀ v ∈ visits, v.task.taskIdHex = taskIdHex →
        SubmitsInWindow crates pipeline v := fun v hv htask =>
      (hvisits v hv).submitsInWindow (hwindow v hv htask) hfits
    refine ⟨fun v hv htask => ?_, fun _ v hv hsecondary => ?_, ?_⟩
    · rcases hsubmits v hv htask with ⟨-, hnil⟩ | ⟨-, h⟩
      · rw [hnil]
        exact ⟨Nat.zero_le _, fun reply hreply => absurd hreply List.not_mem_nil⟩
      · exact ⟨h.length_le, h.transient_of_dropLast⟩
    · have h := (hsubmits v hv hsecondary.1).submitsAs hsecondary
      exact ⟨h, List.ne_nil_of_length_pos h.length_pos⟩
    · rw [neverResubmits_iff hsubmits]
      exact (or_iff_right (not_lt.2 hfits)).symm
  · -- no visit submits as secondary
    have hsubmits : ∀ v ∈ visits, v.task.taskIdHex = taskIdHex →
        SubmitsAs crates pipeline v.task .postGrace v.trace := fun v hv htask =>
      (hvisits v hv).submitsAs_postGrace (hwindow v hv htask) hoverflow
    refine ⟨fun v hv htask => ?_, fun hfits => absurd hfits (not_le.2 hoverflow), ?_⟩
    · exact ⟨(hsubmits v hv htask).length_le, (hsubmits v hv htask).transient_of_dropLast⟩
    · exact iff_of_true (neverResubmits_of_postGrace hsubmits) (Or.inl hoverflow)

/-- At two ledgers of one grace period: a transient failure is retried, and after the rejection of
the retry, the next ledger submits once more. -/
theorem resubmits_after_rejection :
    let events := [foundAlone (sampleRemoteTask 10) 11, foundAlone (sampleRemoteTask 10) 12]
    let visit := secondaryVisit sampleCrates (samplePipeline 4) (sampleRemoteTask 10)
    let visits := [visit (11, sampleRejected), visit (12, sampleConfirmed)]
    ∃ t, RunTrace sampleCrates .release (TaskDiscovery.wired (samplePipeline 4)) events visits t ∧
      Answered InFlightSet.Answers t ∅ ∅ ∧ (∀ v ∈ visits, InWindow 10 v) ∧
      ¬ NeverResubmits sampleCrates (samplePipeline 4) sampleTaskIdHex visits := by
  intro events visit visits
  have hkeeper : (sampleRemoteTask 10).designatedKeeper ≠ (samplePipeline 4).keeperAddress := by
    decide
  have hwindow : ∀ round ∈ [((11 : U32), sampleRejected), (12, sampleConfirmed)],
      (sampleRemoteTask 10).nextAllowedExecution.val < round.1.val ∧
        round.1.val ≤ (sampleRemoteTask 10).nextAllowedExecution.val + 50 := by
    intro round hround
    rcases List.mem_pair.1 hround with rfl | rfl
    · exact ⟨by decide, by decide⟩
    · exact ⟨by decide, by decide⟩
  have hattempts : ∀ round ∈ [((11 : U32), sampleRejected), (12, sampleConfirmed)],
      AttemptsTrace sampleCrates (samplePipeline 4) (sampleRemoteTask 10) .secondary 0
        (samplePipeline 4).retryBackoffInitial (samplePipeline 4).maxRetries.val.toNat
        round.2 := by
    intro round hround
    rcases List.mem_pair.1 hround with rfl | rfl
    · exact attemptsTrace_sampleRejected
    · exact attemptsTrace_sampleConfirmed
  obtain ⟨t, hrun, hanswered⟩ := exists_runTrace (p := .release) (by decide) hkeeper
    (Finset.notMem_empty _) hwindow hattempts
  refine ⟨t, hrun, hanswered, ?_, fun h => ?_⟩
  · intro v hv
    rcases List.mem_pair.1 hv with rfl | rfl
    · exact ⟨rfl, by decide, by decide⟩
    · exact ⟨rfl, by decide, by decide⟩
  · -- the first submission of the first visit fails, and the second visit submits
    have hfails : ∃ post, Fails (samplePipeline 4) ((samplePipeline 4).buildSignedTransaction
        sampleCrates (sampleRemoteTask 10) .secondary) (visit (11, sampleRejected)).trace post := by
      refine ⟨_, [_, _, _, _], _, rfl, ?_⟩
      rintro ⟨hash, poll, post, hpost, -⟩
      cases hpost
    have hnil := h.later [] _ [] _ [] rfl rfl rfl hfails
    cases hnil

/-- A visit that is confirmed at once. -/
theorem window_submissions_sample :
    let visits := [secondaryVisit sampleCrates (samplePipeline 4) (sampleRemoteTask 10)
      (11, sampleConfirmed)]
    ∃ t, RunTrace sampleCrates .release (TaskDiscovery.wired (samplePipeline 4))
        [foundAlone (sampleRemoteTask 10) 11] visits t ∧
      NeverResubmits sampleCrates (samplePipeline 4) sampleTaskIdHex visits := by
  intro visits
  have hkeeper : (sampleRemoteTask 10).designatedKeeper ≠ (samplePipeline 4).keeperAddress := by
    decide
  have hwindow : ∀ round ∈ [((11 : U32), sampleConfirmed)],
      (sampleRemoteTask 10).nextAllowedExecution.val < round.1.val ∧
        round.1.val ≤ (sampleRemoteTask 10).nextAllowedExecution.val + 50 := by
    intro round hround
    rw [List.mem_singleton.1 hround]
    exact ⟨by decide, by decide⟩
  have hattempts : ∀ round ∈ [((11 : U32), sampleConfirmed)],
      AttemptsTrace sampleCrates (samplePipeline 4) (sampleRemoteTask 10) .secondary 0
        (samplePipeline 4).retryBackoffInitial (samplePipeline 4).maxRetries.val.toNat
        round.2 := by
    intro round hround
    rw [List.mem_singleton.1 hround]
    exact attemptsTrace_sampleConfirmed
  obtain ⟨t, hrun, hanswered⟩ := exists_runTrace (p := .release) (by decide) hkeeper
    (Finset.notMem_empty _) hwindow hattempts
  have hneeds : NeedsNoRetry (samplePipeline 4) sampleTaskIdHex visits := by
    constructor
    · intro v hv _ hfirst
      rw [List.mem_singleton.1 hv] at hfirst
      obtain ⟨reply, hreply, e, he⟩ := hfirst
      cases hreply
      cases he
    · intro before v between v' after hsplit
      have hlength := congrArg List.length hsplit
      simp only [List.length_append, List.length_cons, List.length_nil, visits] at hlength
      omega
  have hinWindow : ∀ v ∈ visits, v.task.taskIdHex = sampleTaskIdHex → InWindow 10 v := by
    intro v hv _
    rw [List.mem_singleton.1 hv]
    exact ⟨rfl, by decide, by decide⟩
  refine ⟨t, hrun, ?_⟩
  exact (window_submissions hrun hanswered hinWindow).2.2.2 (Or.inr hneeds)

end ChronosKeeper.Engine
