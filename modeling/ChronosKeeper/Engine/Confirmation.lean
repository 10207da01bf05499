import ChronosKeeper.Engine.Discovery

/-!
# Waiting for confirmation

`wait_for_confirmation` against an endpoint that answers the successive polls by a sequence of
replies, each with a status and a latency. `WaitsForFinalStatus` is what the waiting is for: to
poll on while the transaction is not in a ledger, and to return what the first final status says.

The decoder leaves no reply pending (`RpcClient.isFinal_txResult`), so the loop ends with the first
poll (`run_waitForConfirmation`), and the waiting does what it is for exactly when the first reply
is final or comes too late (`waitsForFinalStatus_iff`).
-/

set_option autoImplicit false

namespace ChronosKeeper.Engine

open ChronosKeeper.Foundations

/-! ## Replies -/

/-- The status of a transaction: not yet in a ledger, or executed with success or failure. -/
inductive TxStatus where
  | notFound
  | success
  | failed
  deriving DecidableEq

def TxStatus.text : TxStatus → String
  | .notFound => "NOT_FOUND"
  | .success => "SUCCESS"
  | .failed => "FAILED"

/-- A reply to `getTransaction` and the time it took, in nanoseconds. -/
structure StatusReply where
  latency : Nat
  status : TxStatus
  ledger : Option U64
  resultMetaXdr : Option String

def StatusReply.result (reply : StatusReply) : GetTxResult where
  status := some reply.status.text
  ledger := reply.ledger
  resultMetaXdr := reply.resultMetaXdr

/-- The endpoint answers the polls by `replies`; the state counts them. -/
def StatusReply.answer (replies : Nat → StatusReply) :
    (op : EngineOp) → Nat → Option (op.Reply × Nat)
  | .postGetTransaction _, n => some (⟨(replies n).latency, .json none (replies n).result⟩, n + 1)
  | .sleep _, n => some ((), n)
  | _, _ => none

/-- When reply `n` arrives if the polls before it are each followed by a sleep. -/
def arrival (replies : Nat → StatusReply) : Nat → Nat
  | 0 => (replies 0).latency
  | n + 1 => arrival replies n + ExecutionPipeline.pollInterval.nanos + (replies (n + 1)).latency

theorem arrival_mono {replies : Nat → StatusReply} : Monotone (arrival replies) :=
  monotone_nat_of_le_succ fun n => by
    rw [arrival]
    omega

/-- Reply `n` is the first one that is final, and it arrives in time. -/
structure FinalReply (timeout : Nat) (replies : Nat → StatusReply) (n : Nat) : Prop where
  inTime : arrival replies n ≤ timeout
  isFinal : (replies n).status ≠ .notFound
  pending : ∀ k < n, (replies k).status = .notFound

/-! ## The purpose of the waiting -/

/-- The polling goes on while the transaction is not found and the time is not over, and the
result is the one of the first final status, or a timeout where there is none in time. -/
structure ReturnsFinalStatus (pipeline : ExecutionPipeline) (replies : Nat → StatusReply)
    (result : Except EngineError TxResult) (polls : Nat) : Prop where
  pollsOn : ∀ n, (∀ k ≤ n, (replies k).status = .notFound) →
    arrival replies n + ExecutionPipeline.pollInterval.nanos ≤
      pipeline.confirmationTimeout.nanos → n + 1 < polls
  success_iff : (∃ tx, result = .ok tx ∧ tx.success = true) ↔
    ∃ n, FinalReply pipeline.confirmationTimeout.nanos replies n ∧ (replies n).status = .success
  failed_iff : (∃ tx, result = .ok tx ∧ tx.success = false) ↔
    ∃ n, FinalReply pipeline.confirmationTimeout.nanos replies n ∧ (replies n).status = .failed
  timeout_iff : result = pipeline.timedOut ↔
    ∀ n, arrival replies n ≤ pipeline.confirmationTimeout.nanos →
      (replies n).status = .notFound

/-- Against these replies, the wait ends and does what it is for. -/
def WaitsForFinalStatus (pipeline : ExecutionPipeline) (hash : TxHash)
    (replies : Nat → StatusReply) : Prop :=
  ∃ result polls, (pipeline.waitForConfirmation hash).run (StatusReply.answer replies) 0 =
    some (result, polls) ∧ ReturnsFinalStatus pipeline replies result polls

/-! ## What the code does -/

/-- The loop takes every decoded reply for a final one: without success there always is an error
detail. -/
theorem RpcClient.isFinal_txResult (hash : TxHash) (result : GetTxResult) :
    ((RpcClient.txResult hash result).success ||
      (RpcClient.txResult hash result).errorDetail.isSome) = true := by
  rw [RpcClient.txResult_errorDetail]
  cases (RpcClient.txResult hash result).success <;> rfl

theorem success_txResult (hash : TxHash) (reply : StatusReply) :
    (RpcClient.txResult hash reply.result).success = true ↔ reply.status = .success := by
  rw [RpcClient.txResult_success]
  show (reply.status.text == "SUCCESS") = true ↔ _
  generalize reply.status = status
  cases status <;> decide

/-- What the first poll returns. -/
def firstPoll (pipeline : ExecutionPipeline) (hash : TxHash) (reply : StatusReply) :
    Except EngineError TxResult :=
  if pipeline.confirmationTimeout.nanos < reply.latency then pipeline.timedOut
  else .ok (RpcClient.txResult hash reply.result)

variable {pipeline : ExecutionPipeline} {hash : TxHash} {replies : Nat → StatusReply}

/-- The wait ends with the first poll. -/
theorem run_waitForConfirmation :
    (pipeline.waitForConfirmation hash).run (StatusReply.answer replies) 0 =
      some (firstPoll pipeline hash (replies 0), 1) := by
  unfold ExecutionPipeline.waitForConfirmation ExecutionPipeline.pollUntilFinal
    RpcClient.getTransaction
  rw [postGetTransaction_bind, Program.perform_bind, Program.run_perform rfl]
  simp only [Program.pure_eq_done, Program.done_bind]
  unfold firstPoll
  split
  · rfl
  · show Program.run _ (if _ then _ else _) _ = _
    rw [if_pos (RpcClient.isFinal_txResult hash _)]
    rfl

theorem waitsForFinalStatus_iff_firstPoll :
    WaitsForFinalStatus pipeline hash replies ↔
      ReturnsFinalStatus pipeline replies (firstPoll pipeline hash (replies 0)) 1 := by
  unfold WaitsForFinalStatus
  rw [run_waitForConfirmation]
  constructor
  · rintro ⟨result, polls, hrun, h⟩
    cases hrun
    exact h
  · intro h
    exact ⟨_, _, rfl, h⟩

/-! ## When that serves the purpose -/

theorem FinalReply.eq_zero {timeout n : Nat} (h : FinalReply timeout replies n)
    (h0 : (replies 0).status ≠ .notFound) : n = 0 := by
  rcases Nat.eq_zero_or_pos n with hzero | hpos
  · exact hzero
  · exact absurd (h.pending 0 hpos) h0

/-- A first reply that comes too late: the wait times out, as nothing arrives in time. -/
theorem returnsFinalStatus_of_late
    (hlate : pipeline.confirmationTimeout.nanos < (replies 0).latency) :
    ReturnsFinalStatus pipeline replies (firstPoll pipeline hash (replies 0)) 1 := by
  have hall : ∀ n, pipeline.confirmationTimeout.nanos < arrival replies n := fun n =>
    hlate.trans_le (arrival_mono (Nat.zero_le n))
  have hnone : ∀ n, ¬ FinalReply pipeline.confirmationTimeout.nanos replies n := fun n h =>
    absurd h.inTime (not_le.2 (hall n))
  have hresult : firstPoll pipeline hash (replies 0) = pipeline.timedOut := if_pos hlate
  rw [hresult]
  refine { pollsOn := ?_, success_iff := ?_, failed_iff := ?_, timeout_iff := ?_ }
  · intro n _ htime
    have := hall n
    omega
  · refine iff_of_false ?_ fun ⟨n, h, _⟩ => hnone n h
    rintro ⟨tx, htx, -⟩
    cases htx
  · refine iff_of_false ?_ fun ⟨n, h, _⟩ => hnone n h
    rintro ⟨tx, htx, -⟩
    cases htx
  · exact iff_of_true rfl fun n htime => absurd htime (not_le.2 (hall n))

/-- A first reply that is final and in time is the result. -/
theorem returnsFinalStatus_of_final
    (htime : (replies 0).latency ≤ pipeline.confirmationTimeout.nanos)
    (hfinal : (replies 0).status ≠ .notFound) :
    ReturnsFinalStatus pipeline replies (firstPoll pipeline hash (replies 0)) 1 := by
  have hzero : FinalReply pipeline.confirmationTimeout.nanos replies 0 :=
    { inTime := htime, isFinal := hfinal, pending := fun k hk => absurd hk (Nat.not_lt_zero k) }
  have hresult : firstPoll pipeline hash (replies 0) =
      .ok (RpcClient.txResult hash (replies 0).result) := if_neg (not_lt.2 htime)
  -- The first final reply is the first reply.
  have hfirst : ∀ status, (∃ n, FinalReply pipeline.confirmationTimeout.nanos replies n ∧
      (replies n).status = status) ↔ (replies 0).status = status := by
    intro status
    constructor
    · rintro ⟨n, h, hstatus⟩
      rw [← h.eq_zero hfinal]
      exact hstatus
    · intro hstatus
      exact ⟨0, hzero, hstatus⟩
  have hsuccess := success_txResult hash (replies 0)
  rw [hresult]
  refine { pollsOn := ?_, success_iff := ?_, failed_iff := ?_, timeout_iff := ?_ }
  · intro n hpending _
    exact absurd (hpending 0 (Nat.zero_le n)) hfinal
  · rw [hfirst, ← hsuccess]
    constructor
    · rintro ⟨tx, htx, h⟩
      cases htx
      exact h
    · intro h
      exact ⟨_, rfl, h⟩
  · rw [hfirst]
    constructor
    · rintro ⟨tx, htx, h⟩
      cases htx
      cases hstatus : (replies 0).status with
      | notFound => exact absurd hstatus hfinal
      | success => rw [hsuccess.2 hstatus] at h; cases h
      | failed => rfl
    · intro hfailed
      refine ⟨_, rfl, eq_false_of_ne_true fun h => ?_⟩
      rw [hsuccess.1 h] at hfailed
      cases hfailed
  · refine iff_of_false (fun h => ?_) fun h => hfinal (h 0 htime)
    cases h

/-- A first reply that is pending and in time is returned as a failure: either there was time for
another poll, or no final reply arrives in time. -/
theorem not_returnsFinalStatus_of_pending
    (htime : (replies 0).latency ≤ pipeline.confirmationTimeout.nanos)
    (hpending : (replies 0).status = .notFound) :
    ¬ ReturnsFinalStatus pipeline replies (firstPoll pipeline hash (replies 0)) 1 := by
  intro h
  have hresult : firstPoll pipeline hash (replies 0) =
      .ok (RpcClient.txResult hash (replies 0).result) := if_neg (not_lt.2 htime)
  have hfailure : (RpcClient.txResult hash (replies 0).result).success = false := by
    refine eq_false_of_ne_true fun hsuccess => ?_
    rw [(success_txResult hash (replies 0)).1 hsuccess] at hpending
    cases hpending
  obtain ⟨n, hn, hstatus⟩ := h.failed_iff.1 ⟨_, hresult, hfailure⟩
  obtain ⟨m, rfl⟩ : ∃ m, n = m + 1 := by
    refine Nat.exists_eq_succ_of_ne_zero ?_
    rintro rfl
    exact hn.isFinal hpending
  have harrival : arrival replies 0 + ExecutionPipeline.pollInterval.nanos ≤
      arrival replies (m + 1) := by
    have hmono : arrival replies 0 ≤ arrival replies m := arrival_mono (Nat.zero_le m)
    have hnext : arrival replies (m + 1) = arrival replies m +
      ExecutionPipeline.pollInterval.nanos + (replies (m + 1)).latency := rfl
    omega
  have hpolls := h.pollsOn 0 (fun k hk => Nat.le_zero.1 hk ▸ hpending)
    (harrival.trans hn.inTime)
  exact absurd hpolls (lt_irrefl _)

/-- The wait does what it is for exactly when the first reply comes too late or is final. -/
theorem waitsForFinalStatus_iff (pipeline : ExecutionPipeline) (hash : TxHash)
    (replies : Nat → StatusReply) :
    WaitsForFinalStatus pipeline hash replies ↔
      pipeline.confirmationTimeout.nanos < (replies 0).latency ∨
        (replies 0).status ≠ .notFound := by
  rw [waitsForFinalStatus_iff_firstPoll]
  rcases lt_or_ge pipeline.confirmationTimeout.nanos (replies 0).latency with hlate | htime
  · exact iff_of_true (returnsFinalStatus_of_late hlate) (Or.inl hlate)
  · by_cases hpending : (replies 0).status = .notFound
    · refine iff_of_false (not_returnsFinalStatus_of_pending htime hpending) ?_
      rintro (hlate | hfinal)
      · exact absurd hlate (not_lt.2 htime)
      · exact hfinal hpending
    · exact iff_of_true (returnsFinalStatus_of_final htime hpending) (Or.inr hpending)

/-- A transaction that is not found at first and succeeds with the second poll, each reply within a
second. -/
def lateSuccess (n : Nat) : StatusReply where
  latency := 1000000000
  status := if n = 0 then .notFound else .success
  ledger := if n = 0 then none else some 11
  resultMetaXdr := none

/-- It is reported as failed after the first poll. -/
theorem pending_reported_as_failed :
    (∃ result polls, ((samplePipeline 4).waitForConfirmation "a0").run
        (StatusReply.answer lateSuccess) 0 = some (.ok result, polls) ∧
      result.success = false ∧ polls = 1) ∧
    ¬ WaitsForFinalStatus (samplePipeline 4) "a0" lateSuccess := by
  constructor
  · have hfirst : firstPoll (samplePipeline 4) "a0" (lateSuccess 0) =
        .ok (RpcClient.txResult "a0" (lateSuccess 0).result) := if_neg (by decide)
    refine ⟨RpcClient.txResult "a0" (lateSuccess 0).result, 1, ?_, by decide, rfl⟩
    rw [run_waitForConfirmation, hfirst]
  · rw [waitsForFinalStatus_iff_firstPoll]
    exact not_returnsFinalStatus_of_pending (by decide) rfl

end ChronosKeeper.Engine
