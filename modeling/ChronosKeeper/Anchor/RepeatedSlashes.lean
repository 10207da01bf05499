import ChronosKeeper.Anchor.Signs
import ChronosKeeper.Foundations.Decay

/-!
# Slashing a keeper again and again

Over the integers a slash is a `decay` by the twentieth part. Whatever happens in between, the
stake of a keeper after `n` slashes is the `n`-fold decay of the stake it registered with
(`stake_run`), so it comes to rest below 20 and not at zero; the zero-stake guard of a slash is
never met. A resting stake is far below the constant minimum, so the flag is set by then
(`repeated_slashing`). Overflow aborts throughout.
-/

set_option autoImplicit false

namespace ChronosKeeper.Anchor

open ChronosKeeper.Foundations

variable {Address TokenState : Type} [DecidableEq Address]

/-- The action is a successful execution that slashes the keeper. -/
def isSlashOf (host : Host Address TokenState) (p : Profile) (D : Address)
    (env : Env Address TokenState) : Action Address TokenState → Bool
  | .call inv (.executeDripSplit taskId caller) =>
      match env.tasks.lookup taskId with
      | some task => decide (InGrace env task ∧ D = task.designatedKeeper ∧
          Succeeds host p inv (.executeDripSplit taskId caller) env)
      | none => false
  | _ => false

/-- The keeper is flagged if its stake is below the constant minimum. -/
def Marked (k : Keeper Address) : Prop :=
  k.stakeAmount.val < MIN_KEEPER_STAKE.val → k.ineligible = true

variable {host : Host Address TokenState} {inv : Invocation Address TokenState}
  {env : Env Address TokenState} {taskId : TaskId} {task : ExecutionTask Address}
  {caller D : Address} {k : Keeper Address}

/-! ## One slash -/

/-- The stake left by a slash of a stake that is not negative. -/
theorem slashedStake_eq_decay {s : Int} (hs : 0 ≤ s) : slashedStake s = decay 20 s := by
  unfold slashedStake decay
  rw [Int.tdiv_eq_ediv_of_nonneg (by omega)]
  omega

theorem recordAfter_ineligible_iff (x : Address) (k : Keeper Address) :
    (recordAfter env task caller x k).ineligible = true ↔
      (InGrace env task ∧ x = task.designatedKeeper ∧
        slashedStake k.stakeAmount.val < MIN_KEEPER_STAKE.val) ∨ k.ineligible = true := by
  -- crediting an execution does not touch the flag
  have hcredit : (recordAfter env task caller x k).ineligible =
      (if InGrace env task ∧ x = task.designatedKeeper then slashRecord k else k).ineligible := by
    by_cases hx : x = caller
    · simp only [recordAfter, if_pos hx]
      rfl
    · simp only [recordAfter, if_neg hx]
  rw [hcredit]
  by_cases hslash : InGrace env task ∧ x = task.designatedKeeper
  · rw [if_pos hslash, slashRecord_ineligible_iff]
    simp only [hslash.1, hslash.2, true_and]
  · rw [if_neg hslash]
    constructor
    · exact Or.inr
    · rintro (⟨hin, hx, -⟩ | hflag)
      · exact absurd ⟨hin, hx⟩ hslash
      · exact hflag

theorem isSlashOf_execute (htask : env.tasks.lookup taskId = some task)
    (hok : Succeeds host .debug inv (.executeDripSplit taskId caller) env) :
    isSlashOf host .debug D env (.call inv (.executeDripSplit taskId caller)) =
      decide (InGrace env task ∧ D = task.designatedKeeper) := by
  simp only [isSlashOf, htask, hok, and_true]

theorem isSlashOf_of_not_succeeds {action : Action Address TokenState}
    (hidle : ∀ inv c, action = .call inv c →
      ¬ Succeeds host .debug inv c env ∨ c.readOnly = true) :
    isSlashOf host .debug D env action = false := by
  unfold isSlashOf
  split
  · rename_i inv taskId caller
    split
    · rename_i task htask
      apply decide_eq_false
      rintro ⟨-, -, hok⟩
      rcases hidle inv _ rfl with hnot | hread
      · exact hnot hok
      · cases hread
    · rfl
  · rfl

variable (host) in
/-- A slash decays the stake of the keeper and leaves it marked; no other step touches its stake or
its flag. -/
theorem standing_step (h : WellFormed env) (hk : env.keepers.lookup D = some k)
    (hs : 0 ≤ k.stakeAmount.val) (action : Action Address TokenState) :
    ∃ k', (step host .debug env action).keepers.lookup D = some k' ∧
      ((isSlashOf host .debug D env action = true ∧
          k'.stakeAmount.val = decay 20 k.stakeAmount.val ∧ Marked k') ∨
        (isSlashOf host .debug D env action = false ∧
          k'.stakeAmount.val = k.stakeAmount.val ∧ (Marked k → Marked k'))) := by
  have heffect := step_effect host .debug env action
  generalize step host .debug env action = env' at heffect
  cases heffect with
  | executed inv taskId caller task env' hok htask _ hexec =>
      refine ⟨recordAfter env task caller D k, ?_, ?_⟩
      · rw [hexec.lookup_keepers h, hk, Option.map_some]
      rw [isSlashOf_execute htask hok, recordAfter_stakeAmount]
      -- the execution slashes the keeper, or it does not
      by_cases hslash : InGrace env task ∧ D = task.designatedKeeper
      · refine Or.inl ⟨decide_eq_true hslash, ?_, ?_⟩
        · rw [if_pos hslash, slashedStake_eq_decay hs]
        · intro hlow
          rw [recordAfter_stakeAmount, if_pos hslash] at hlow
          exact (recordAfter_ineligible_iff D k).2 (Or.inl ⟨hslash.1, hslash.2, hlow⟩)
      · refine Or.inr ⟨decide_eq_false hslash, if_neg hslash, ?_⟩
        intro hmarked hlow
        rw [recordAfter_stakeAmount, if_neg hslash] at hlow
        exact (recordAfter_ineligible_iff D k).2 (Or.inr (hmarked hlow))
  | registered inv keeper stakeAmount _ _ _ hnew =>
      -- the keeper has a record, so another address registers
      refine ⟨k, ?_, Or.inr ⟨rfl, rfl, fun hmarked => hmarked⟩⟩
      rw [lookup_keepers_registered, if_neg, hk]
      rintro rfl
      rw [hk] at hnew
      cases hnew
  | idle action hidle =>
      exact ⟨k, hk, Or.inr ⟨isSlashOf_of_not_succeeds hidle, rfl, fun hmarked => hmarked⟩⟩
  | initialized => exact ⟨k, hk, Or.inr ⟨rfl, rfl, fun hmarked => hmarked⟩⟩
  | provisioned => exact ⟨k, hk, Or.inr ⟨rfl, rfl, fun hmarked => hmarked⟩⟩
  | closed => exact ⟨k, hk, Or.inr ⟨rfl, rfl, fun hmarked => hmarked⟩⟩
  | transferred => exact ⟨k, hk, Or.inr ⟨rfl, rfl, fun hmarked => hmarked⟩⟩

/-- A slash of a keeper with a stake does not meet the zero-stake guard. -/
theorem outcome_applySlash_ne_slashOnZeroStake {p : Profile}
    (hk : env.keepers.lookup D = some k) (hz : k.stakeAmount ≠ 0) :
    (applySlash p D).outcome env ≠ .error (.error .slashOnZeroStake) := by
  intro herror
  cases hformula : slashFormula p k.stakeAmount with
  | none =>
      -- an overflow in the amounts traps, which is another error
      have htrap := outcome_applySlash_of_abort (p := p) hk hz fun a ha => by
        rw [hformula] at ha
        cases ha
      rw [htrap] at herror
      cases herror
  | some a =>
      cases htreasury : p.add (env.treasuryBalance.getD 0) a.treasuryPortion with
      | none =>
          -- so does a treasury without room
          have htrap := outcome_applySlash_of_abort (p := p) hk hz fun b hb => by
            rw [hformula] at hb
            cases hb
            exact htreasury
          rw [htrap] at herror
          cases herror
      | some t =>
          have hok := outcome_applySlash_eq_ok.2
            ⟨k, a, t, hk, hz, hformula, htreasury, rfl, rfl⟩
          rw [hok] at herror
          cases herror

/-! ## Runs -/

/-- The number of slashes of the keeper in a run. -/
def slashCount (host : Host Address TokenState) (D : Address) (env : Env Address TokenState)
    (actions : List (Action Address TokenState)) : Nat :=
  eventCount (step host .debug) (isSlashOf host .debug D) env actions

theorem decay_twenty_nonneg {s : Int} (hs : 0 ≤ s) : 0 ≤ decay 20 s := by
  unfold decay
  omega

variable (host) in
/-- After any run the stake has decayed once for every slash, and a slash has marked the keeper. -/
theorem stake_run (actions : List (Action Address TokenState)) :
    ∀ {env : Env Address TokenState} {k : Keeper Address}, WellFormed env →
      env.keepers.lookup D = some k → 0 ≤ k.stakeAmount.val →
      ∃ k', (run (step host .debug) env actions).keepers.lookup D = some k' ∧
        k'.stakeAmount.val = (decay 20)^[slashCount host D env actions] k.stakeAmount.val ∧
        (Marked k ∨ 0 < slashCount host D env actions → Marked k') := by
  induction actions with
  | nil =>
      intro env k _ hk _
      refine ⟨k, hk, rfl, ?_⟩
      rintro (hmarked | hcount)
      · exact hmarked
      · exact absurd hcount (Nat.lt_irrefl 0)
  | cons action actions ih =>
      intro env k h hk hs
      obtain ⟨k₁, hk₁, hstanding⟩ := standing_step host h hk hs action
      have hcount : slashCount host D env (action :: actions) =
          slashCount host D (step host .debug env action) actions +
            if isSlashOf host .debug D env action = true then 1 else 0 := eventCount_cons _ _ _ _
      rcases hstanding with ⟨hslash, hstake, hmarked⟩ | ⟨hnot, hstake, hmarked⟩
      · -- a slash: the first decay, and the mark that later steps keep
        obtain ⟨k', hk', hrun, hkept⟩ := ih (h.step action) hk₁
          (hstake ▸ decay_twenty_nonneg hs)
        rw [hslash, if_pos rfl] at hcount
        refine ⟨k', hk', ?_, fun _ => hkept (Or.inl hmarked)⟩
        rw [hrun, hcount, hstake, Function.iterate_succ_apply]
      · obtain ⟨k', hk', hrun, hkept⟩ := ih (h.step action) hk₁ (hstake ▸ hs)
        rw [hnot, if_neg Bool.false_ne_true, add_zero] at hcount
        refine ⟨k', hk', ?_, fun hor => hkept ?_⟩
        · rw [hrun, hcount, hstake]
        · rw [hcount] at hor
          exact hor.imp_left hmarked

/-- From the registration of a keeper on, its stake is the iterated decay of the registered one,
does not fall below 19 or the registered stake, and never makes a slash fail for lack of stake;
each slash lowers a stake of at least 20, and as many slashes as the registered stake says have
marked the keeper ineligible. -/
theorem repeated_slashing (host : Host Address TokenState) (tokens : TokenState)
    (ledgerSequence : U32) (before after : List (Action Address TokenState))
    (inv : Invocation Address TokenState) (D : Address) (stakeAmount : I128)
    (hreg : Registrable inv (run (step host .debug) (deployed tokens ledgerSequence) before) D
      stakeAmount)
    (hpos : 1 ≤ stakeAmount.val) :
    let start := step host .debug (run (step host .debug) (deployed tokens ledgerSequence) before)
      (.call inv (.registerKeeper D stakeAmount))
    let env := run (step host .debug) start after
    let slashes := slashCount host D start after
    ∃ k, env.keepers.lookup D = some k ∧
      k.stakeAmount.val = (decay 20)^[slashes] stakeAmount.val ∧
      min stakeAmount.val 19 ≤ k.stakeAmount.val ∧
      (∀ action, isSlashOf host .debug D env action = true →
        ∃ k', (step host .debug env action).keepers.lookup D = some k' ∧
          k'.stakeAmount.val = decay 20 k.stakeAmount.val ∧
          (20 ≤ k.stakeAmount.val → k'.stakeAmount.val < k.stakeAmount.val)) ∧
      (applySlash .debug D).outcome env ≠ .error (.error .slashOnZeroStake) ∧
      (stakeAmount.val ≤ slashes → k.ineligible = true) := by
  intro start env slashes
  have hW := wellFormed_run host .debug tokens ledgerSequence before
  have hW₁ : WellFormed start := hW.step _
  have hstored : start.keepers.lookup D = some (newKeeper D stakeAmount) :=
    stake_of_registration hreg
  obtain ⟨k, hk, hstake, hmarked⟩ := stake_run host after hW₁ hstored
    (by show 0 ≤ stakeAmount.val; omega)
  have hstart : (newKeeper D stakeAmount).stakeAmount.val = stakeAmount.val := rfl
  rw [hstart] at hstake
  -- the iterated decay stays at 19 or at the registered stake, whichever is less
  have hlow : min stakeAmount.val (20 - 1) ≤ k.stakeAmount.val := by
    rw [hstake]
    exact min_le_iterate_decay (by omega) (by omega) _
  have hWenv : WellFormed env := run_induction hW₁ (fun _ action h => h.step action) after
  refine ⟨k, hk, hstake, hlow, ?_, ?_, ?_⟩
  · intro action hslash
    obtain ⟨k', hk', hstanding⟩ := standing_step host hWenv hk (by omega) action
    rcases hstanding with ⟨-, hdecay, -⟩ | ⟨hnot, -⟩
    · refine ⟨k', hk', hdecay, fun hlarge => ?_⟩
      rw [hdecay]
      exact decay_lt (by omega) hlarge
    · rw [hslash] at hnot
      cases hnot
  · apply outcome_applySlash_ne_slashOnZeroStake hk
    intro hzero
    have hval : k.stakeAmount.val = 0 := MachineInt.eq_iff.1 hzero
    omega
  · intro hcount
    -- The stake rests below 20, and the last slash has compared it with the constant.
    have hrest : k.stakeAmount.val < 20 := by
      rw [hstake]
      exact iterate_decay_lt (by omega) (by omega) hcount
    have hslashed : 0 < slashes := by omega
    have hconst := val_MIN_KEEPER_STAKE
    exact hmarked (Or.inr hslashed) (by omega)

/-- A keeper with a stake of 30 is slashed at the ledgers 11 and 22. -/
theorem repeated_slashing_sample :
    let id := sampleSha256 (taskSeed 0 0)
    let start := step sampleHost .debug
      (run (step sampleHost .debug) (deployed (sampleTokens 1000) 0)
        [.call sampleInvocation (.initializeContract 2 1 1)])
      (.call sampleInvocation (.registerKeeper 3 30))
    let after : List (Action Nat (TokenLedger Nat)) :=
      [.call sampleInvocation (.registerKeeper 4 500),
        .call sampleInvocation (.provisionTask 5 10 30 3), .closeLedger 11,
        .call sampleInvocation (.executeDripSplit id 4), .closeLedger 22,
        .call sampleInvocation (.executeDripSplit id 4)]
    slashCount sampleHost 3 start after = 2 ∧
      ∃ k, (run (step sampleHost .debug) start after).keepers.lookup 3 = some k ∧
        k.stakeAmount.val = (decay 20)^[slashCount sampleHost 3 start after] 30 := by
  intro id start after
  refine ⟨by decide +kernel, ?_⟩
  obtain ⟨k, hk, hstake, -⟩ := repeated_slashing sampleHost (sampleTokens 1000) 0
    [.call sampleInvocation (.initializeContract 2 1 1)] after sampleInvocation 3 30
    (by decide +kernel) (by decide)
  exact ⟨k, hk, hstake⟩

end ChronosKeeper.Anchor
