import ChronosKeeper.Anchor.Accounting

/-!
# Executions as updates of records

A successful execution rewrites the record stored under each address by a function of that record
alone: `recordAfter` slashes the record of the designated keeper in the grace period and credits
the record of the caller (`Executes.lookup_keepers`). The treasury after it is a function of the
state before it as well (`Executes.treasury_eq`). Overflow aborts throughout, so both functions
compute over the integers.
-/

set_option autoImplicit false

namespace ChronosKeeper.Anchor

open ChronosKeeper.Foundations

variable {Address TokenState : Type}

/-! ## Updates of a record -/

/-- The record after a slash of its stake. -/
def slashRecord (k : Keeper Address) : Keeper Address :=
  slashedKeeper k (MachineInt.wrap .i128 (slashedStake k.stakeAmount.val))

/-- The record after one more execution. -/
def creditRecord (currentLedger : U32) (k : Keeper Address) : Keeper Address :=
  executedKeeper k (MachineInt.wrap .u64 (k.totalExecutions.val + 1)) currentLedger

@[simp] theorem creditRecord_stakeAmount (l : U32) (k : Keeper Address) :
    (creditRecord l k).stakeAmount = k.stakeAmount := rfl

@[simp] theorem creditRecord_lastExecutionLedger (l : U32) (k : Keeper Address) :
    (creditRecord l k).lastExecutionLedger = l := rfl

/-- A slash never leaves the integer type: the stake moves toward zero. -/
theorem inRange_slashedStake (s : I128) : IntTy.i128.InRange (slashedStake s.val) := by
  have hb := s.bounds
  rw [IntTy.inRange_i128]
  unfold slashedStake
  rcases le_or_gt 0 s.val with hs | hs
  · have hq := MachineInt.tdiv_spec_of_nonneg (x := s.val * 5) (b := 100) (by omega) (by omega)
    omega
  · have hq := MachineInt.tdiv_spec_of_nonpos (x := s.val * 5) (b := 100) (by omega) (by omega)
    omega

@[simp] theorem slashRecord_stakeAmount_val (k : Keeper Address) :
    (slashRecord k).stakeAmount.val = slashedStake k.stakeAmount.val :=
  MachineInt.val_wrap_of_inRange (inRange_slashedStake k.stakeAmount)

theorem slashRecord_ineligible_iff (k : Keeper Address) :
    (slashRecord k).ineligible = true ↔
      slashedStake k.stakeAmount.val < MIN_KEEPER_STAKE.val ∨ k.ineligible = true := by
  have hval := slashRecord_stakeAmount_val k
  show (if (slashRecord k).stakeAmount < MIN_KEEPER_STAKE then true else k.ineligible) = true ↔ _
  rw [← hval]
  by_cases hlt : (slashRecord k).stakeAmount < MIN_KEEPER_STAKE
  · rw [if_pos hlt]
    exact iff_of_true rfl (Or.inl hlt)
  · rw [if_neg hlt]
    exact ⟨Or.inr, fun h => h.resolve_left hlt⟩

theorem slashedKeeper_eq_slashRecord {k : Keeper Address} {a : SlashAmounts}
    (h : slashFormula .debug k.stakeAmount = some a) :
    slashedKeeper k a.newStake = slashRecord k := by
  have hslash := isSlash_of_slashFormula (Or.inl rfl) h
  unfold slashRecord
  rw [← hslash.newStake_eq, MachineInt.wrap_val]

theorem executedKeeper_eq_creditRecord {k : Keeper Address} {total : U64} (l : U32)
    (h : Profile.debug.add k.totalExecutions 1 = some total) :
    executedKeeper k total l = creditRecord l k := by
  have htotal : total.val = k.totalExecutions.val + 1 := Profile.val_of_fit_debug h
  unfold creditRecord
  rw [← htotal, MachineInt.wrap_val]

/-! ## The update of an execution -/

variable [DecidableEq Address]

/-- What an execution of the task by the caller makes of the record stored under `x`. -/
def recordAfter (env : Env Address TokenState) (task : ExecutionTask Address)
    (caller x : Address) (k : Keeper Address) : Keeper Address :=
  let k' := if InGrace env task ∧ x = task.designatedKeeper then slashRecord k else k
  if x = caller then creditRecord env.ledgerSequence k' else k'

/-- What an execution of the task credits to the treasury. -/
def graceCredit (env : Env Address TokenState) (task : ExecutionTask Address) : Int :=
  if InGrace env task then
    match env.keepers.lookup task.designatedKeeper with
    | some k => treasuryPortionOf k.stakeAmount.val
    | none => 0
  else 0

/-- `TreasuryBalance` after an execution of the task. Only a slash writes it. -/
def treasuryAfter (env : Env Address TokenState) (task : ExecutionTask Address) : Option I128 :=
  if InGrace env task then some (MachineInt.wrap .i128 (treasury env + graceCredit env task))
  else env.treasuryBalance

variable {host : Host Address TokenState} {inv : Invocation Address TokenState}
  {env env' : Env Address TokenState} {taskId : TaskId} {task : ExecutionTask Address}
  {caller : Address}

theorem recordAfter_of_not_inGrace (hnot : ¬ InGrace env task) (x : Address)
    (k : Keeper Address) : recordAfter env task caller x k =
      if x = caller then creditRecord env.ledgerSequence k else k := by
  simp only [recordAfter, hnot, false_and, if_false]

theorem recordAfter_lastExecutionLedger (a : Address) (k : Keeper Address) :
    (recordAfter env task caller a k).lastExecutionLedger =
      if a = caller then env.ledgerSequence else k.lastExecutionLedger := by
  by_cases hcaller : a = caller
  · simp only [recordAfter, if_pos hcaller, creditRecord_lastExecutionLedger]
  · simp only [recordAfter, if_neg hcaller]
    split
    · rfl
    · rfl

theorem recordAfter_totalExecutions {a : Address} {k : Keeper Address}
    (hfit : a = caller → IntTy.u64.InRange (k.totalExecutions.val + 1)) :
    (recordAfter env task caller a k).totalExecutions.val =
      k.totalExecutions.val + if a = caller then 1 else 0 := by
  by_cases hcaller : a = caller
  · simp only [recordAfter, if_pos hcaller]
    split
    · exact MachineInt.val_wrap_of_inRange (hfit hcaller)
    · exact MachineInt.val_wrap_of_inRange (hfit hcaller)
  · simp only [recordAfter, if_neg hcaller, add_zero]
    split
    · rfl
    · rfl

theorem recordAfter_stakeAmount (x : Address) (k : Keeper Address) :
    (recordAfter env task caller x k).stakeAmount.val =
      if InGrace env task ∧ x = task.designatedKeeper then slashedStake k.stakeAmount.val
      else k.stakeAmount.val := by
  by_cases hx : x = caller
  · simp only [recordAfter, if_pos hx, creditRecord_stakeAmount]
    split
    · exact slashRecord_stakeAmount_val k
    · rfl
  · simp only [recordAfter, if_neg hx]
    split
    · exact slashRecord_stakeAmount_val k
    · rfl

/-- A record that was found under the address of the caller is credited, and no other. -/
theorem map_recordAfter_of_not_inGrace (hnot : ¬ InGrace env task) {k : Keeper Address}
    {total : U64} (hk : env.keepers.lookup caller = some k)
    (htotal : Profile.debug.add k.totalExecutions 1 = some total) (x : Address) :
    (if x = caller then some (executedKeeper k total env.ledgerSequence)
      else env.keepers.lookup x) =
      (env.keepers.lookup x).map (recordAfter env task caller x) := by
  have hfun : recordAfter env task caller x = fun k =>
      if x = caller then creditRecord env.ledgerSequence k else k :=
    funext (recordAfter_of_not_inGrace hnot x)
  rw [hfun]
  by_cases hx : x = caller
  · subst hx
    simp only [if_true, hk, Option.map_some, executedKeeper_eq_creditRecord _ htotal]
  · simp only [if_neg hx, Option.map_id']

/-- The record stored under each address after an execution is the update of the one before. -/
theorem Executes.lookup_keepers (hexec : Executes host .debug inv env taskId task caller env')
    (h : WellFormed env) (x : Address) :
    env'.keepers.lookup x = (env.keepers.lookup x).map (recordAfter env task caller x) := by
  cases hexec with
  | designated d hledger _ hd =>
      rw [lookup_keepers_distributed task h hd.keeper false x]
      exact map_recordAfter_of_not_inGrace (not_inGrace_of_eq hledger) hd.keeper
        hd.totalExecutions x
  | postGrace elapsed d hgrace _ _ hd =>
      rw [lookup_keepers_distributed task (h.missed taskId elapsed) hd.keeper false x]
      exact map_recordAfter_of_not_inGrace (not_inGrace_of_lt hgrace) hd.keeper
        hd.totalExecutions x
  | grace k a t d st hopen hgrace hne _ hk _ hformula _ hd =>
      have hin : InGrace env task := ⟨hopen, hgrace⟩
      have hcaller := hd.keeper
      rw [lookup_caller_of_slashed h hk hne] at hcaller
      rw [lookup_keepers_grace h hk a t st hd.keeper x]
      -- The caller and the designated keeper are different addresses.
      by_cases hx : x = caller
      · subst hx
        have hrecord : recordAfter env task x x d.keeper =
            creditRecord env.ledgerSequence d.keeper := by
          simp only [recordAfter, hne, and_false, if_false, if_true]
        rw [if_pos rfl, hcaller, Option.map_some, hrecord,
          executedKeeper_eq_creditRecord _ hd.totalExecutions]
      · rw [if_neg hx]
        by_cases hD : x = task.designatedKeeper
        · subst hD
          have hrecord : recordAfter env task caller task.designatedKeeper k = slashRecord k := by
            simp only [recordAfter, hin, true_and, if_true, if_neg hx]
          rw [if_pos rfl, hk, Option.map_some, hrecord, slashedKeeper_eq_slashRecord hformula]
        · have hrecord : recordAfter env task caller x = id := by
            funext k'
            simp only [recordAfter, hD, and_false, if_false, if_neg hx, id]
          rw [if_neg hD, hrecord, Option.map_id, id]

theorem graceCredit_of_not_inGrace (hnot : ¬ InGrace env task) : graceCredit env task = 0 :=
  if_neg hnot

theorem graceCredit_of_inGrace (hin : InGrace env task) {k : Keeper Address}
    (hk : env.keepers.lookup task.designatedKeeper = some k) :
    graceCredit env task = treasuryPortionOf k.stakeAmount.val := by
  simp only [graceCredit, if_pos hin, hk]

/-- The treasury after an execution. -/
theorem Executes.treasury_eq (hexec : Executes host .debug inv env taskId task caller env') :
    treasury env' = treasury env + graceCredit env task ∧
      env'.treasuryBalance = treasuryAfter env task := by
  unfold treasuryAfter
  cases hexec with
  | designated d hledger =>
      have hnot := not_inGrace_of_eq hledger
      rw [if_neg hnot, graceCredit_of_not_inGrace hnot, add_zero]
      exact ⟨rfl, rfl⟩
  | postGrace elapsed d hgrace =>
      have hnot := not_inGrace_of_lt hgrace
      rw [if_neg hnot, graceCredit_of_not_inGrace hnot, add_zero]
      exact ⟨rfl, rfl⟩
  | grace k a t d st hopen hgrace _ _ hk _ hformula htreasury =>
      have hin : InGrace env task := ⟨hopen, hgrace⟩
      have hslash := isSlash_of_slashFormula (Or.inl rfl) hformula
      have hval : t.val = treasury env + a.treasuryPortion.val :=
        Profile.val_of_fit_debug htreasury
      rw [if_pos hin, graceCredit_of_inGrace hin hk, ← hslash.treasuryPortion_eq, ← hval,
        MachineInt.wrap_val]
      exact ⟨rfl, rfl⟩

/-- The counter of the caller could be advanced. -/
theorem Executes.counter_fits (hexec : Executes host .debug inv env taskId task caller env')
    (h : WellFormed env) :
    ∃ k, env.keepers.lookup caller = some k ∧
      IntTy.u64.InRange (k.totalExecutions.val + 1) := by
  have hfit : ∀ {k : Keeper Address} {total : U64},
      Profile.debug.add k.totalExecutions 1 = some total →
        IntTy.u64.InRange (k.totalExecutions.val + 1) := fun htotal =>
    Profile.inRange_of_fit_debug htotal
  cases hexec with
  | designated d _ _ hd => exact ⟨d.keeper, hd.keeper, hfit hd.totalExecutions⟩
  | postGrace elapsed d _ _ _ hd => exact ⟨d.keeper, hd.keeper, hfit hd.totalExecutions⟩
  | grace k a t d st _ _ hne _ hk _ _ _ hd =>
      have hcaller := hd.keeper
      rw [lookup_caller_of_slashed h hk hne] at hcaller
      exact ⟨d.keeper, hcaller, hfit hd.totalExecutions⟩

end ChronosKeeper.Anchor
