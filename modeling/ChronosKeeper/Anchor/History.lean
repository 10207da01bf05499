import ChronosKeeper.Anchor.Signs
import ChronosKeeper.Anchor.Integrity

/-!
# The history of a keeper

From its registration on, the record of a keeper is rewritten by slashes and by executions only
(`keeper_step`). Both move it forward: the stake does not rise, the counters do not fall and the
flag is not cleared (`LaterRecord`). The counter of the record is the number of executions the
keeper has performed (`totalExecutions_eq_count`), whatever order slashes and executions come in.

Overflow aborts, and the configured minimum stake, if there is one, is not negative.
-/

set_option autoImplicit false

namespace ChronosKeeper.Anchor

open ChronosKeeper.Foundations

variable {Address TokenState : Type} [DecidableEq Address]

/-- The action is a successful execution by the keeper. -/
def isExecutionBy (host : Host Address TokenState) (p : Profile) (keeper : Address)
    (env : Env Address TokenState) : Action Address TokenState → Bool
  | .call inv (.executeDripSplit taskId caller) =>
      decide (caller = keeper ∧ Succeeds host p inv (.executeDripSplit taskId caller) env)
  | _ => false

/-- The configured minimum stake, if any, is not negative. -/
def NonnegativeMinimum (env : Env Address TokenState) : Prop :=
  ∀ m ∈ env.minKeeperStake, 0 ≤ m.val

instance (env : Env Address TokenState) : Decidable (NonnegativeMinimum env) :=
  inferInstanceAs (Decidable (∀ m ∈ env.minKeeperStake, 0 ≤ m.val))

/-- A record and a later one of the same keeper. -/
structure LaterRecord (k k' : Keeper Address) : Prop where
  address : k'.address = k.address
  stakeAmount : k'.stakeAmount.val ≤ k.stakeAmount.val
  totalExecutions : k.totalExecutions.val ≤ k'.totalExecutions.val
  lastExecutionLedger : k.lastExecutionLedger.val ≤ k'.lastExecutionLedger.val
  ineligible : k.ineligible = true → k'.ineligible = true

namespace LaterRecord

variable {k k' k'' : Keeper Address}

omit [DecidableEq Address] in
theorem refl (k : Keeper Address) : LaterRecord k k :=
  ⟨rfl, le_refl _, le_refl _, le_refl _, fun h => h⟩

omit [DecidableEq Address] in
theorem trans (h : LaterRecord k k') (h' : LaterRecord k' k'') : LaterRecord k k'' where
  address := h'.address.trans h.address
  stakeAmount := h'.stakeAmount.trans h.stakeAmount
  totalExecutions := h.totalExecutions.trans h'.totalExecutions
  lastExecutionLedger := h.lastExecutionLedger.trans h'.lastExecutionLedger
  ineligible hk := h'.ineligible (h.ineligible hk)

end LaterRecord

/-- No keeper has executed in a ledger that is still to come. -/
def ExecutedInPast (env : Env Address TokenState) : Prop :=
  ∀ a k, env.keepers.lookup a = some k → k.lastExecutionLedger.val ≤ env.ledgerSequence.val

/-- The invariant that the history of a keeper is proved from. -/
structure Historic (env : Env Address TokenState) : Prop where
  wellFormed : WellFormed env
  nonnegative : Nonnegative env
  executedInPast : ExecutedInPast env

variable {host : Host Address TokenState} {p : Profile} {inv : Invocation Address TokenState}
  {env env' : Env Address TokenState} {taskId : TaskId} {task : ExecutionTask Address}
  {caller a : Address} {k : Keeper Address}

/-! ## Records across an execution -/

omit [DecidableEq Address] in
/-- A slash moves the record of a keeper with a non-negative stake forward. -/
theorem laterRecord_slashRecord (hstake : 0 ≤ k.stakeAmount.val) :
    LaterRecord k (slashRecord k) where
  address := rfl
  stakeAmount := by
    have hslash : 0 ≤ (k.stakeAmount.val * 5).tdiv 100 := Int.tdiv_nonneg (by omega) (by omega)
    rw [slashRecord_stakeAmount_val]
    unfold slashedStake
    omega
  totalExecutions := le_refl _
  lastExecutionLedger := le_refl _
  ineligible hk := (slashRecord_ineligible_iff k).2 (Or.inr hk)

omit [DecidableEq Address] in
/-- So does an execution whose counter fits. -/
theorem laterRecord_creditRecord {l : U32} (hpast : k.lastExecutionLedger.val ≤ l.val)
    (hfit : IntTy.u64.InRange (k.totalExecutions.val + 1)) : LaterRecord k (creditRecord l k) where
  address := rfl
  stakeAmount := le_refl _
  totalExecutions := by
    have hval : (creditRecord l k).totalExecutions.val = k.totalExecutions.val + 1 :=
      MachineInt.val_wrap_of_inRange hfit
    omega
  lastExecutionLedger := hpast
  ineligible hk := hk

/-- What an execution makes of a record: the counter of the caller, the ledger, and nothing that
takes the record back. -/
theorem laterRecord_recordAfter (hexec : Executes host .debug inv env taskId task caller env')
    (h : Historic env) (hk : env.keepers.lookup a = some k) :
    LaterRecord k (recordAfter env task caller a k) := by
  obtain ⟨kc, hkc, hfit⟩ := hexec.counter_fits h.wellFormed
  have hstake : 0 ≤ k.stakeAmount.val := h.nonnegative.stakes a k hk
  have hpast := h.executedInPast a k hk
  -- The slash comes first if there is one, and then the credit of the caller.
  have hslashed : LaterRecord k
      (if InGrace env task ∧ a = task.designatedKeeper then slashRecord k else k) := by
    split
    · exact laterRecord_slashRecord hstake
    · exact LaterRecord.refl k
  by_cases hcaller : a = caller
  · rw [hcaller, hkc] at hk
    cases hk
    simp only [recordAfter, if_pos hcaller]
    apply hslashed.trans
    apply laterRecord_creditRecord
    · split
      · exact hpast
      · exact hpast
    · split
      · exact hfit
      · exact hfit
  · simp only [recordAfter, if_neg hcaller]
    exact hslashed

/-! ## One step -/

theorem isExecutionBy_iff {action : Action Address TokenState} :
    isExecutionBy host p a env action = true ↔
      ∃ inv taskId, action = .call inv (.executeDripSplit taskId a) ∧
        Succeeds host p inv (.executeDripSplit taskId a) env := by
  constructor
  · intro h
    unfold isExecutionBy at h
    split at h
    · rename_i inv taskId caller
      obtain ⟨rfl, hok⟩ := of_decide_eq_true h
      exact ⟨inv, taskId, rfl, hok⟩
    · cases h
  · rintro ⟨inv, taskId, rfl, hok⟩
    exact decide_eq_true ⟨rfl, hok⟩

/-- A stored record stays as it is unless a task is executed, which then updates it. -/
theorem keeper_step (h : WellFormed env) (hk : env.keepers.lookup a = some k)
    (action : Action Address TokenState) :
    (isExecutionBy host .debug a env action = false ∧
        (step host .debug env action).keepers.lookup a = some k) ∨
      ∃ inv taskId task caller env', step host .debug env action = env' ∧
        Executes host .debug inv env taskId task caller env' ∧
        isExecutionBy host .debug a env action = decide (a = caller) ∧
        env'.keepers.lookup a = some (recordAfter env task caller a k) := by
  have heffect := step_effect host .debug env action
  generalize step host .debug env action = env' at heffect
  cases heffect with
  | executed inv taskId caller task env' hok _ _ hexec =>
      right
      refine ⟨inv, taskId, task, caller, env', rfl, hexec, ?_, ?_⟩
      · simp only [isExecutionBy, hok, and_true, eq_comm]
      · rw [hexec.lookup_keepers h, hk, Option.map_some]
  | idle action hidle =>
      left
      refine ⟨?_, hk⟩
      by_contra hby
      obtain ⟨inv, taskId, rfl, hok⟩ := isExecutionBy_iff.1 (eq_true_of_ne_false hby)
      rcases hidle inv _ rfl with hnot | hread
      · exact hnot hok
      · cases hread
  | initialized => exact Or.inl ⟨rfl, hk⟩
  | registered inv keeper stakeAmount _ _ _ hnew =>
      left
      refine ⟨rfl, ?_⟩
      rw [lookup_keepers_registered, if_neg, hk]
      rintro rfl
      rw [hk] at hnew
      cases hnew
  | provisioned => exact Or.inl ⟨rfl, hk⟩
  | closed => exact Or.inl ⟨rfl, hk⟩
  | transferred => exact Or.inl ⟨rfl, hk⟩

/-- One step moves the record of a registered keeper forward or leaves it alone. -/
theorem laterRecord_step (h : Historic env) (hk : env.keepers.lookup a = some k)
    (action : Action Address TokenState) :
    ∃ k', (step host .debug env action).keepers.lookup a = some k' ∧ LaterRecord k k' := by
  rcases keeper_step h.wellFormed hk action with ⟨-, hsame⟩ | ⟨inv, taskId, task, caller, env',
    hstep, hexec, -, hafter⟩
  · exact ⟨k, hsame, LaterRecord.refl k⟩
  · rw [hstep]
    exact ⟨_, hafter, laterRecord_recordAfter hexec h hk⟩

/-- A record found after a step was written by a registration or stems from the one before. -/
theorem executedInPast_step (h : WellFormed env) (hpast : ExecutedInPast env)
    (action : Action Address TokenState) : ExecutedInPast (step host .debug env action) := by
  intro a k' hk'
  have hledger : env.ledgerSequence.val ≤
      (step host .debug env action).ledgerSequence.val := ledger_le_step action
  cases hk : env.keepers.lookup a with
  | some k =>
      have hold := hpast a k hk
      rcases keeper_step h hk action with ⟨-, hsame⟩ | ⟨inv, taskId, task, caller, env', hstep,
        hexec, -, hafter⟩
      · rw [hsame] at hk'
        cases hk'
        exact hold.trans hledger
      · rw [hstep] at hk' hledger ⊢
        rw [hafter] at hk'
        cases hk'
        rw [recordAfter_lastExecutionLedger]
        split
        · exact hledger
        · exact hold.trans hledger
  | none =>
      -- Only a registration writes under a free address, and it starts with ledger zero.
      have heffect := step_effect host .debug env action
      generalize step host .debug env action = env' at heffect hk' hledger
      have hfree : env.keepers.lookup a = some k' → k'.lastExecutionLedger.val ≤
          env'.ledgerSequence.val := by
        intro hsame
        rw [hk] at hsame
        cases hsame
      cases heffect with
      | registered inv keeper stakeAmount =>
          rw [lookup_keepers_registered] at hk'
          split at hk'
          · cases hk'
            exact env.ledgerSequence.bounds.1
          · exact hfree hk'
      | executed inv taskId caller task env' _ _ _ hexec =>
          rw [hexec.lookup_keepers h, hk] at hk'
          cases hk'
      | idle => exact hfree hk'
      | initialized => exact hfree hk'
      | provisioned => exact hfree hk'
      | closed => exact hfree hk'
      | transferred => exact hfree hk'

theorem historic_deployed (tokens : TokenState) (ledgerSequence : U32) :
    Historic (deployed tokens ledgerSequence : Env Address TokenState) where
  wellFormed := wellFormed_deployed tokens ledgerSequence
  nonnegative := nonnegative_deployed tokens ledgerSequence
  executedInPast _ _ h := by cases h

theorem Historic.step (h : Historic env) {action : Action Address TokenState}
    (hreg : RegistersNonnegative env action) : Historic (step host .debug env action) where
  wellFormed := h.wellFormed.step action
  nonnegative := h.nonnegative.step hreg
  executedInPast := executedInPast_step h.wellFormed h.executedInPast action

/-! ## Counting executions -/

/-- The counter in the record of an address, zero if it has none. -/
def recordedExecutions (env : Env Address TokenState) (a : Address) : Int :=
  match env.keepers.lookup a with
  | some k => k.totalExecutions.val
  | none => 0

theorem recordedExecutions_of_some (hk : env.keepers.lookup a = some k) :
    recordedExecutions env a = k.totalExecutions.val := by
  unfold recordedExecutions
  rw [hk]

/-- A step that executes for the keeper raises its counter by one; no other step touches it. -/
theorem recordedExecutions_step (h : WellFormed env) (action : Action Address TokenState) :
    recordedExecutions (step host .debug env action) a =
      recordedExecutions env a + if isExecutionBy host .debug a env action = true then 1 else 0 := by
  cases hk : env.keepers.lookup a with
  | some k =>
      rcases keeper_step h hk action with ⟨hnot, hsame⟩ | ⟨inv, taskId, task, caller, env', hstep,
        hexec, hby, hafter⟩
      · rw [recordedExecutions_of_some hk, recordedExecutions_of_some hsame, hnot,
          if_neg Bool.false_ne_true, add_zero]
      · obtain ⟨kc, hkc, hfit⟩ := hexec.counter_fits h
        have hfits : a = caller → IntTy.u64.InRange (k.totalExecutions.val + 1) := by
          rintro rfl
          rw [hk] at hkc
          cases hkc
          exact hfit
        rw [hstep, recordedExecutions_of_some hk, recordedExecutions_of_some hafter, hby,
          recordAfter_totalExecutions hfits]
        simp only [decide_eq_true_eq]
  | none =>
      have hnot : isExecutionBy host .debug a env action = false := by
        by_contra hby
        obtain ⟨inv, taskId, rfl, hok⟩ := isExecutionBy_iff.1 (eq_true_of_ne_false hby)
        obtain ⟨task, -, -, hexec⟩ := executes_of_succeeds hok
        obtain ⟨k, hk'⟩ := hexec.caller_registered
        rw [hk] at hk'
        cases hk'
      have hzero : recordedExecutions env a = 0 := by
        unfold recordedExecutions
        rw [hk]
      rw [hnot, if_neg Bool.false_ne_true, hzero]
      -- A record that appears is that of a registration, whose counter is zero.
      have heffect := step_effect host .debug env action
      generalize Anchor.step host .debug env action = env' at heffect
      have hsame : env'.keepers.lookup a = none → recordedExecutions env' a = 0 + 0 := by
        intro hnone
        unfold recordedExecutions
        rw [hnone]
        rfl
      cases heffect with
      | registered inv keeper stakeAmount =>
          by_cases ha : a = keeper
          · have hnew : (registered env keeper stakeAmount).keepers.lookup a = _ :=
              (lookup_keepers_registered keeper stakeAmount a).trans (if_pos ha)
            rw [recordedExecutions_of_some hnew]
            rfl
          · apply hsame
            rw [lookup_keepers_registered, if_neg ha, hk]
      | executed inv taskId caller task env' _ _ _ hexec =>
          apply hsame
          rw [hexec.lookup_keepers h, hk, Option.map_none]
      | idle => exact hsame hk
      | initialized => exact hsame hk
      | provisioned => exact hsame hk
      | closed => exact hsame hk
      | transferred => exact hsame hk

/-- The counter of a keeper is the number of executions it has performed in the run. -/
theorem totalExecutions_eq_count (tokens : TokenState) (ledgerSequence : U32)
    (actions : List (Action Address TokenState)) (a : Address) :
    recordedExecutions (run (step host .debug) (deployed tokens ledgerSequence) actions) a =
      eventCount (step host .debug) (isExecutionBy host .debug a) (deployed tokens ledgerSequence)
        actions := by
  have hcount := @run_eq_add_eventCount _ _ (step host .debug) _
    (fun env => recordedExecutions env a) (isExecutionBy host .debug a) _
    (wellFormed_deployed tokens ledgerSequence) (fun _ action h => h.step action)
    (fun env action h hnot => by
      rw [recordedExecutions_step h, hnot, if_neg Bool.false_ne_true, add_zero])
    (fun env action h hby => by rw [recordedExecutions_step h, hby, if_pos rfl]) actions
  rw [hcount]
  exact zero_add _

/-! ## Runs -/

/-- A minimum that is not negative at the end of a run never was. -/
theorem registersNonnegative_of_final {tokens : TokenState} {ledgerSequence : U32}
    {actions : List (Action Address TokenState)}
    (hmin : NonnegativeMinimum (run (step host .debug) (deployed tokens ledgerSequence) actions)) :
    ∀ r ∈ trace (step host .debug) (deployed tokens ledgerSequence) actions,
      RegistersNonnegative r.1 r.2 := by
  rintro ⟨env, action⟩ hr
  obtain ⟨pre, post, rfl, rfl⟩ := mem_trace_iff.1 hr
  apply registersNonnegative_of_minimum
  intro m hm
  -- What is configured stays configured to the end.
  have hkeeps : Keeps _ (run (step host .debug) _ (action :: post)) :=
    keeps_run (wellFormed_run host .debug tokens ledgerSequence pre) _
  apply hmin m
  rw [run_append]
  exact hkeeps.minKeeperStake m hm

theorem historic_run {actions : List (Action Address TokenState)} (h : Historic env)
    (hreg : ∀ r ∈ trace (step host .debug) env actions, RegistersNonnegative r.1 r.2) :
    Historic (run (step host .debug) env actions) :=
  run_induction_of_trace h (fun _ _ hr h => h.step hr) actions hreg

theorem laterRecord_run {actions : List (Action Address TokenState)} (h : Historic env)
    (hreg : ∀ r ∈ trace (step host .debug) env actions, RegistersNonnegative r.1 r.2)
    (hk : env.keepers.lookup a = some k) :
    ∃ k', (run (step host .debug) env actions).keepers.lookup a = some k' ∧ LaterRecord k k' := by
  have hstep : ∀ s (action : Action Address TokenState), RegistersNonnegative s action →
      (Historic s ∧ ∃ k', s.keepers.lookup a = some k' ∧ LaterRecord k k') →
        Historic (step host .debug s action) ∧
          ∃ k', (step host .debug s action).keepers.lookup a = some k' ∧ LaterRecord k k' := by
    rintro s action hr ⟨hs, k', hk', hlater⟩
    obtain ⟨k'', hk'', hlater'⟩ := laterRecord_step hs hk' action
    exact ⟨hs.step hr, k'', hk'', hlater.trans hlater'⟩
  have hrun := run_induction_of_trace ⟨h, k, hk, LaterRecord.refl k⟩ hstep actions hreg
  exact hrun.2

/-! ## Later calls -/

/-- A registered keeper cannot register again, and the attempt changes nothing. -/
theorem invoke_registerKeeper_of_registered (hk : env.keepers.lookup a = some k)
    (hauth : inv.authorized a = true) {stakeAmount : I128}
    (hstake : (effectiveMinStake env).val ≤ stakeAmount.val) :
    invoke host p inv (.registerKeeper a stakeAmount) env =
      (.error (.error .keeperAlreadyRegistered), env) := by
  have hreg : isRegistered env a = true := isRegistered_iff.2 ⟨k, hk⟩
  have hreached : ¬ stakeAmount < effectiveMinStake env := not_lt.2 hstake
  apply Tx.commit_of_error
  apply Tx.outcome_map_of_error
  unfold registerKeeper
  rw [Tx.outcome_bind_of_ok (outcome_requireAuth hauth env),
    Tx.outcome_get_bind,
    Tx.outcome_bind_of_ok (Tx.outcome_reject_of_neg hreached _ env)]
  exact Tx.outcome_bind_of_error (Tx.outcome_reject_of_pos hreg _ env)

theorem step_registerKeeper_of_registered (hk : env.keepers.lookup a = some k)
    (stakeAmount : I128) : step host p env (.call inv (.registerKeeper a stakeAmount)) = env := by
  apply invoke_of_not_succeeds
  left
  intro hok
  obtain ⟨v, hv⟩ := invoke_of_succeeds hok
  obtain ⟨-, -, -, hnew, -⟩ := invoke_registerKeeper_eq_ok.1 hv
  rw [hk] at hnew
  cases hnew

/-- No task can be given to a keeper that has become ineligible. -/
theorem not_succeeds_provisionTask (hk : env.keepers.lookup a = some k)
    (hineligible : k.ineligible = true) (targetDripList : Address) (interval : U32)
    (reward : I128) :
    ¬ Succeeds host p inv (.provisionTask targetDripList interval reward a) env := by
  intro hok
  obtain ⟨v, hv⟩ := invoke_of_succeeds hok
  obtain ⟨taskId, nextCounter, next, -, htask, -⟩ := invoke_provisionTask_eq_ok.1 hv
  obtain ⟨k', hk', heligible⟩ := htask.designated
  have hsame : env.keepers.lookup a = some k' := hk'
  rw [hk] at hsame
  cases hsame
  rw [hineligible] at heligible
  cases heligible

/-- Once registered, a keeper only moves forward, its counter counts its executions, it cannot
register again, and if it becomes ineligible it stays so and is given no more tasks. -/
theorem keeper_history (host : Host Address TokenState) (tokens : TokenState)
    (ledgerSequence : U32) (before after : List (Action Address TokenState)) (a : Address)
    (k : Keeper Address)
    (hmin : NonnegativeMinimum
      (run (step host .debug) (deployed tokens ledgerSequence) (before ++ after)))
    (hk : (run (step host .debug) (deployed tokens ledgerSequence) before).keepers.lookup a =
      some k) :
    let later := run (step host .debug) (deployed tokens ledgerSequence) (before ++ after)
    ∃ k', later.keepers.lookup a = some k' ∧ LaterRecord k k' ∧
      k'.totalExecutions.val = eventCount (step host .debug) (isExecutionBy host .debug a)
        (deployed tokens ledgerSequence) (before ++ after) ∧
      k'.lastExecutionLedger.val ≤ later.ledgerSequence.val ∧
      (∀ inv stakeAmount,
        step host .debug later (.call inv (.registerKeeper a stakeAmount)) = later ∧
          (inv.authorized a = true → (effectiveMinStake later).val ≤ stakeAmount.val →
            invoke host .debug inv (.registerKeeper a stakeAmount) later =
              (.error (.error .keeperAlreadyRegistered), later))) ∧
      (k.ineligible = true → k'.ineligible = true ∧
        ∀ inv targetDripList interval reward, ¬ Succeeds host .debug inv
          (.provisionTask targetDripList interval reward a) later) := by
  intro later
  have hreg := registersNonnegative_of_final hmin
  rw [trace_append] at hreg
  have hbefore : Historic (run (step host .debug) (deployed tokens ledgerSequence) before) :=
    historic_run (historic_deployed tokens ledgerSequence)
      fun r hr => hreg r (List.mem_append_left _ hr)
  have hafter := fun r hr => hreg r (List.mem_append_right _ hr)
  have hsplit : later = run (step host .debug)
      (run (step host .debug) (deployed tokens ledgerSequence) before) after := run_append _ _ _
  obtain ⟨k', hk', hlater⟩ := laterRecord_run hbefore hafter hk
  have hhistoric := historic_run hbefore hafter
  rw [← hsplit] at hk' hhistoric
  refine ⟨k', hk', hlater, ?_, hhistoric.executedInPast a k' hk', ?_, ?_⟩
  · rw [← recordedExecutions_of_some hk']
    exact totalExecutions_eq_count tokens ledgerSequence (before ++ after) a
  · intro inv stakeAmount
    exact ⟨step_registerKeeper_of_registered hk' stakeAmount,
      fun hauth hstake => invoke_registerKeeper_of_registered hk' hauth hstake⟩
  · intro hineligible
    have hflag := hlater.ineligible hineligible
    exact ⟨hflag, fun inv targetDripList interval reward =>
      not_succeeds_provisionTask hk' hflag targetDripList interval reward⟩

/-- A keeper that is slashed once and executes in its next window. -/
theorem keeper_history_sample :
    let id := sampleSha256 (taskSeed 0 0)
    let later := run (step sampleHost .debug) (deployed (sampleTokens 1000) 0)
      ([.call sampleInvocation (.initializeContract 2 1 0),
          .call sampleInvocation (.registerKeeper 3 10000000),
          .call sampleInvocation (.registerKeeper 4 500),
          .call sampleInvocation (.provisionTask 5 10 30 3)] ++
        [.closeLedger 11, .call sampleInvocation (.executeDripSplit id 4), .closeLedger 21,
          .call sampleInvocation (.executeDripSplit id 3)])
    ∃ k', later.keepers.lookup 3 = some k' ∧ LaterRecord (newKeeper 3 10000000) k' := by
  intro id later
  obtain ⟨k', hk', hlater, -⟩ := keeper_history sampleHost (sampleTokens 1000) 0
    [.call sampleInvocation (.initializeContract 2 1 0),
      .call sampleInvocation (.registerKeeper 3 10000000),
      .call sampleInvocation (.registerKeeper 4 500),
      .call sampleInvocation (.provisionTask 5 10 30 3)]
    [.closeLedger 11, .call sampleInvocation (.executeDripSplit (sampleSha256 (taskSeed 0 0)) 4),
      .closeLedger 21,
      .call sampleInvocation (.executeDripSplit (sampleSha256 (taskSeed 0 0)) 3)]
    3 (newKeeper 3 10000000) (by decide +kernel) (by decide +kernel)
  exact ⟨k', hk', hlater⟩

end ChronosKeeper.Anchor
