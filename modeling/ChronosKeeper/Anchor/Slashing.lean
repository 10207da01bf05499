import ChronosKeeper.Anchor.Registry

/-!
# Slashing

`slashing.rs`. A slash takes five percent of the designated keeper's stake, rounded toward zero;
half of it, rounded toward zero, is the reward of the secondary keeper and the rest is credited to
the treasury. The amounts are computed by `slashFormula`; `IsSlash` states them over the integers,
and the two agree whenever `stake * 5` fits (`slashFormula_of_inRange`).
-/

set_option autoImplicit false

namespace ChronosKeeper.Anchor

open ChronosKeeper.Foundations

variable {Address TokenState : Type} [DecidableEq Address]

/-- The amounts of one slash. -/
structure SlashAmounts where
  slashAmount : I128
  newStake : I128
  secondaryReward : I128
  treasuryPortion : I128
  deriving DecidableEq

/-- The slash arithmetic of `apply_slash`. -/
def slashFormula (p : Profile) (stakeAmount : I128) : Option SlashAmounts := do
  let product ← p.mul stakeAmount 5
  let slashAmount ← product.div 100
  let newStake ← p.sub stakeAmount slashAmount
  let secondaryReward ← slashAmount.div 2
  let treasuryPortion ← p.sub slashAmount secondaryReward
  return { slashAmount, newStake, secondaryReward, treasuryPortion }

/-- The record of a keeper after its stake was reduced to `newStake`. -/
def slashedKeeper (keeper : Keeper Address) (newStake : I128) : Keeper Address :=
  { keeper with
    stakeAmount := newStake
    -- The threshold is the constant, whatever minimum is configured.
    ineligible := if newStake < MIN_KEEPER_STAKE then true else keeper.ineligible }

/-- Slashes the keeper and returns the slash amount and the secondary reward. -/
def applySlash (p : Profile) (designatedKeeperAddress : Address) :
    AnchorM Address TokenState (I128 × I128) := do
  let keeper ← getKeeper designatedKeeperAddress
  -- The zero-stake guard publishes an event and then fails the call that would carry it.
  if keeper.stakeAmount = 0 then do
    emitZeroSlash designatedKeeperAddress
    throw (.error .slashOnZeroStake)
  else do
    let amounts ← arith (slashFormula p keeper.stakeAmount)
    let env ← get
    -- What the reward leaves of the slash goes to the treasury.
    let treasury ← arith (p.add (env.treasuryBalance.getD 0) amounts.treasuryPortion)
    modify fun env => { env with treasuryBalance := some treasury }
    updateKeeper (slashedKeeper keeper amounts.newStake)
    emitSlashApplied designatedKeeperAddress amounts.slashAmount amounts.newStake
    return (amounts.slashAmount, amounts.secondaryReward)

/-! ## The amounts -/

/-- The amounts of a slash of the stake `s`, over the integers. -/
structure IsSlash (s : Int) (a : SlashAmounts) : Prop where
  slashAmount : a.slashAmount.val = (s * 5).tdiv 100
  newStake : a.newStake.val = s - a.slashAmount.val
  secondaryReward : a.secondaryReward.val = a.slashAmount.val.tdiv 2
  treasuryPortion : a.treasuryPortion.val = a.slashAmount.val - a.secondaryReward.val

/-- The stake left by a slash of the stake `s`, over the integers. -/
def slashedStake (s : Int) : Int := s - (s * 5).tdiv 100

namespace IsSlash

variable {s : Int} {a : SlashAmounts}

theorem newStake_eq (h : IsSlash s a) : a.newStake.val = slashedStake s := by
  rw [h.newStake, h.slashAmount]
  rfl

/-- A non-negative stake loses between nothing and all of it, and both shares of the slash are
non-negative. -/
theorem bounds_of_nonneg (h : IsSlash s a) (hs : 0 ≤ s) :
    0 ≤ a.slashAmount.val ∧ a.slashAmount.val ≤ s ∧ 0 ≤ a.newStake.val ∧ a.newStake.val ≤ s ∧
      0 ≤ a.secondaryReward.val ∧ 0 ≤ a.treasuryPortion.val := by
  obtain ⟨h1, h2, h3, h4⟩ := h
  have hq := MachineInt.tdiv_spec_of_nonneg (x := s * 5) (b := 100) (by omega) (by omega)
  rw [← h1] at hq
  have hr := MachineInt.tdiv_spec_of_nonneg (x := a.slashAmount.val) (b := 2) (by omega) (by omega)
  rw [← h3] at hr
  omega

/-- A negative stake moves toward zero. -/
theorem bounds_of_nonpos (h : IsSlash s a) (hs : s ≤ 0) :
    a.slashAmount.val ≤ 0 ∧ s ≤ a.slashAmount.val ∧ s ≤ a.newStake.val ∧ a.newStake.val ≤ 0 ∧
      a.secondaryReward.val ≤ 0 ∧ a.treasuryPortion.val ≤ 0 := by
  obtain ⟨h1, h2, h3, h4⟩ := h
  have hq := MachineInt.tdiv_spec_of_nonpos (x := s * 5) (b := 100) (by omega) (by omega)
  rw [← h1] at hq
  have hr := MachineInt.tdiv_spec_of_nonpos (x := a.slashAmount.val) (b := 2) (by omega) (by omega)
  rw [← h3] at hr
  omega

/-- A positive stake stays positive. -/
theorem newStake_pos (h : IsSlash s a) (hs : 1 ≤ s) : 1 ≤ a.newStake.val := by
  obtain ⟨h1, h2, -, -⟩ := h
  have hq := MachineInt.tdiv_spec_of_nonneg (x := s * 5) (b := 100) (by omega) (by omega)
  rw [← h1] at hq
  omega

/-- For a non-negative stake the divisions round down. -/
theorem floor_of_nonneg (h : IsSlash s a) (hs : 0 ≤ s) :
    a.slashAmount.val = s * 5 / 100 ∧ a.secondaryReward.val = s * 5 / 100 / 2 := by
  have hslash : a.slashAmount.val = s * 5 / 100 := by
    rw [h.slashAmount, Int.tdiv_eq_ediv_of_nonneg (by omega)]
  refine ⟨hslash, ?_⟩
  rw [h.secondaryReward, hslash, Int.tdiv_eq_ediv_of_nonneg (by omega)]

end IsSlash

/-- When `stake * 5` fits, no step of the formula overflows. -/
theorem slashFormula_of_inRange (p : Profile) {s : I128} (h : IntTy.i128.InRange (s.val * 5)) :
    ∃ a, slashFormula p s = some a ∧ IsSlash s.val a := by
  have h0 : IntTy.i128.InRange 0 := by decide
  -- The five operations in turn, each with a result in the range.
  have hmul : p.mul s 5 = some ⟨s.val * 5, h⟩ := p.fit_of_inRange h
  have hslash : IntTy.i128.InRange ((s.val * 5).tdiv 100) :=
    MachineInt.inRange_tdiv (⟨s.val * 5, h⟩ : I128) (b := 100) (by omega) h0
  have hdiv : (⟨s.val * 5, h⟩ : I128).div 100 = some ⟨(s.val * 5).tdiv 100, hslash⟩ :=
    MachineInt.div_of_pos _ (by decide) h0
  have hnew : IntTy.i128.InRange (s.val - (s.val * 5).tdiv 100) := by
    have hb := s.bounds
    rw [IntTy.inRange_i128]
    rcases le_or_gt 0 s.val with hs | hs
    · have hq := MachineInt.tdiv_spec_of_nonneg (x := s.val * 5) (b := 100) (by omega) (by omega)
      omega
    · have hq := MachineInt.tdiv_spec_of_nonpos (x := s.val * 5) (b := 100) (by omega) (by omega)
      omega
  have hsub : p.sub s ⟨(s.val * 5).tdiv 100, hslash⟩ = some ⟨_, hnew⟩ := p.fit_of_inRange hnew
  have hreward : IntTy.i128.InRange (((s.val * 5).tdiv 100).tdiv 2) :=
    MachineInt.inRange_tdiv (⟨(s.val * 5).tdiv 100, hslash⟩ : I128) (b := 2) (by omega) h0
  have hhalf : (⟨(s.val * 5).tdiv 100, hslash⟩ : I128).div 2 = some ⟨_, hreward⟩ :=
    MachineInt.div_of_pos _ (by decide) h0
  have hportion : IntTy.i128.InRange ((s.val * 5).tdiv 100 - ((s.val * 5).tdiv 100).tdiv 2) := by
    rw [IntTy.inRange_i128] at hslash ⊢
    rcases le_or_gt 0 ((s.val * 5).tdiv 100) with hs | hs
    · have hq := MachineInt.tdiv_spec_of_nonneg hs (b := 2) (by omega)
      omega
    · have hq := MachineInt.tdiv_spec_of_nonpos hs.le (b := 2) (by omega)
      omega
  have hrest : p.sub (⟨(s.val * 5).tdiv 100, hslash⟩ : I128) ⟨_, hreward⟩ = some ⟨_, hportion⟩ :=
    p.fit_of_inRange hportion
  refine ⟨⟨⟨_, hslash⟩, ⟨_, hnew⟩, ⟨_, hreward⟩, ⟨_, hportion⟩⟩, ?_, rfl, rfl, rfl, rfl⟩
  simp only [slashFormula, hmul, hdiv, hsub, hhalf, hrest, Option.bind_eq_bind, Option.bind_some,
    Option.pure_def]

theorem inRange_of_slashFormula_debug {s : I128} {a : SlashAmounts}
    (h : slashFormula .debug s = some a) : IntTy.i128.InRange (s.val * 5) := by
  cases hmul : Profile.debug.mul s 5 with
  | none =>
      simp only [slashFormula, hmul, Option.bind_eq_bind, Option.bind_none] at h
      cases h
  | some q => exact Profile.inRange_of_fit_debug hmul

/-- The formula is exact in the debug profile, and in every profile when `stake * 5` fits. -/
theorem isSlash_of_slashFormula {p : Profile} {s : I128} {a : SlashAmounts}
    (hp : p = .debug ∨ IntTy.i128.InRange (s.val * 5)) (h : slashFormula p s = some a) :
    IsSlash s.val a := by
  have hr : IntTy.i128.InRange (s.val * 5) := by
    rcases hp with rfl | hr
    · exact inRange_of_slashFormula_debug h
    · exact hr
  obtain ⟨b, hb, hs⟩ := slashFormula_of_inRange p hr
  rw [hb] at h
  cases h
  exact hs

/-- What the formula has computed on the way, from the product, exact or wrapped. -/
theorem steps_of_slashFormula {p : Profile} {s : I128} {a : SlashAmounts}
    (h : slashFormula p s = some a) :
    ∃ product : I128, p.mul s 5 = some product ∧ a.slashAmount.val = product.val.tdiv 100 ∧
      p.sub s a.slashAmount = some a.newStake ∧
      a.secondaryReward.val = a.slashAmount.val.tdiv 2 := by
  unfold slashFormula at h
  simp only [Option.bind_eq_bind, Option.bind_eq_some_iff, Option.pure_def, Option.some.injEq] at h
  obtain ⟨product, hproduct, slashAmount, hdiv, newStake, hsub, reward, hhalf, _, -, rfl⟩ := h
  unfold MachineInt.div at hdiv hhalf
  rw [if_neg (by decide)] at hdiv hhalf
  exact ⟨product, hproduct, MachineInt.val_of_checked hdiv, hsub, MachineInt.val_of_checked hhalf⟩

/-- In the release profile the formula never aborts. -/
theorem exists_slashFormula_release (s : I128) : ∃ a, slashFormula .release s = some a := by
  have h0 : IntTy.i128.InRange 0 := by decide
  have hslash : ∀ product : I128, ∃ slashAmount, product.div 100 = some slashAmount :=
    fun product => ⟨_, MachineInt.div_of_pos product (by decide) h0⟩
  have hhalf : ∀ slashAmount : I128, ∃ reward, slashAmount.div 2 = some reward :=
    fun slashAmount => ⟨_, MachineInt.div_of_pos slashAmount (by decide) h0⟩
  obtain ⟨slashAmount, hdiv⟩ := hslash (MachineInt.wrap .i128 (s.val * (5 : I128).val))
  obtain ⟨reward, hreward⟩ := hhalf slashAmount
  have hmul : Profile.release.mul s 5 = some (MachineInt.wrap .i128 (s.val * (5 : I128).val)) := rfl
  refine ⟨⟨slashAmount, MachineInt.wrap .i128 (s.val - slashAmount.val), reward,
    MachineInt.wrap .i128 (slashAmount.val - reward.val)⟩, ?_⟩
  simp only [slashFormula, hmul, hdiv, hreward, Option.bind_eq_bind, Option.bind_some]
  rfl

/-- No slash leaves a stake of zero, whatever the profile: a wrapped product is still too small
to take the whole of a stake that makes it wrap. -/
theorem newStake_ne_zero {p : Profile} {s : I128} {a : SlashAmounts}
    (h : slashFormula p s = some a) (hs : s ≠ 0) : a.newStake ≠ 0 := by
  have hne : s.val ≠ 0 := MachineInt.val_ne hs
  have hb := s.bounds
  intro hzero
  have hnew : a.newStake.val = 0 := MachineInt.eq_iff.1 hzero
  by_cases hp : p = .debug ∨ IntTy.i128.InRange (s.val * 5)
  · -- Exact amounts: the slash is at most a twentieth of the stake.
    obtain ⟨h1, h2, -, -⟩ := isSlash_of_slashFormula hp h
    rcases le_or_gt 0 s.val with hs0 | hs0
    · have hq := MachineInt.tdiv_spec_of_nonneg (x := s.val * 5) (b := 100) (by omega) (by omega)
      omega
    · have hq := MachineInt.tdiv_spec_of_nonpos (x := s.val * 5) (b := 100) (by omega) (by omega)
      omega
  · cases p with
    | debug => exact hp (Or.inl rfl)
    | release =>
        have hwraps : ¬ IntTy.i128.InRange (s.val * 5) := fun hr => hp (Or.inr hr)
        rw [IntTy.inRange_i128] at hwraps
        obtain ⟨product, -, hslash, hsub, -⟩ := steps_of_slashFormula h
        have hproduct := product.bounds
        have hwrap : IntTy.i128.min + (s.val - a.slashAmount.val - IntTy.i128.min) %
            IntTy.i128.size = 0 := by
          rw [← hnew]
          exact congrArg MachineInt.val (Option.some.inj hsub)
        have hmin : IntTy.i128.min = -170141183460469231731687303715884105728 := rfl
        have hsize : IntTy.i128.size = 340282366920938463463374607431768211456 := rfl
        rw [hmin, hsize] at hwrap
        -- The slash is at most a hundredth of the range, the stake more than a tenth of it.
        rcases le_or_gt 0 product.val with hs0 | hs0
        · have hq := MachineInt.tdiv_spec_of_nonneg (b := 100) hs0 (by omega)
          rw [← hslash] at hq
          omega
        · have hq := MachineInt.tdiv_spec_of_nonpos (b := 100) hs0.le (by omega)
          rw [← hslash] at hq
          omega

/-! ## The effect on the environment -/

/-- The state after a slash of the keeper record `k`, found under `D`. -/
def slashed (env : Env Address TokenState) (D : Address) (k : Keeper Address) (a : SlashAmounts)
    (treasury : I128) : Env Address TokenState :=
  { env with
    treasuryBalance := some treasury
    keepers := env.keepers.insert k.address (slashedKeeper k a.newStake)
    events := env.events ++ [.slashed D a.slashAmount a.newStake] }

theorem outcome_applySlash_eq_ok {p : Profile} {D : Address} {env env' : Env Address TokenState}
    {r : I128 × I128} :
    (applySlash p D).outcome env = .ok (r, env') ↔
      ∃ k a treasury, env.keepers.lookup D = some k ∧ k.stakeAmount ≠ 0 ∧
        slashFormula p k.stakeAmount = some a ∧
        p.add (env.treasuryBalance.getD 0) a.treasuryPortion = some treasury ∧
        r = (a.slashAmount, a.secondaryReward) ∧ env' = slashed env D k a treasury := by
  unfold applySlash
  rw [outcome_getKeeper_bind_eq_ok]
  constructor
  · rintro ⟨k, hk, h⟩
    split at h
    · -- The zero-stake guard does not succeed.
      cases h
    · rename_i hz
      simp only [outcome_arith_bind_eq_ok, Tx.outcome_get_bind, Tx.outcome_modify_bind,
        outcome_updateKeeper_bind, emitSlashApplied, outcome_publish_bind] at h
      obtain ⟨a, ha, treasury, ht, hret⟩ := h
      cases hret
      exact ⟨k, a, treasury, hk, hz, ha, ht, rfl, rfl⟩
  · rintro ⟨k, a, treasury, hk, hz, ha, ht, rfl, rfl⟩
    refine ⟨k, hk, ?_⟩
    rw [if_neg hz]
    simp only [outcome_arith_bind_eq_ok, Tx.outcome_get_bind, Tx.outcome_modify_bind,
      outcome_updateKeeper_bind, emitSlashApplied, outcome_publish_bind]
    exact ⟨a, ha, treasury, ht, rfl⟩

/-- An aborting operation of the slash arithmetic traps. -/
theorem outcome_applySlash_of_abort {p : Profile} {D : Address} {env : Env Address TokenState}
    {k : Keeper Address} (hk : env.keepers.lookup D = some k) (hz : k.stakeAmount ≠ 0)
    (habort : ∀ a, slashFormula p k.stakeAmount = some a →
      p.add (env.treasuryBalance.getD 0) a.treasuryPortion = none) :
    (applySlash p D).outcome env = .error .trap := by
  unfold applySlash
  rw [Tx.outcome_bind_of_ok (outcome_getKeeper_of_some hk), if_neg hz]
  cases ha : slashFormula p k.stakeAmount with
  | none => exact Tx.outcome_bind_of_error rfl
  | some a =>
      rw [Tx.outcome_bind_of_ok (outcome_arith_eq_ok.2 ⟨rfl, rfl⟩),
        Tx.outcome_get_bind]
      apply Tx.outcome_bind_of_error
      rw [habort a ha]
      rfl

/-- A slash of a keeper without stake is an error. -/
theorem outcome_applySlash_of_zero (p : Profile) {D : Address} {env : Env Address TokenState}
    {k : Keeper Address} (hk : env.keepers.lookup D = some k) (hz : k.stakeAmount = 0) :
    (applySlash p D).outcome env = .error (.error .slashOnZeroStake) := by
  unfold applySlash
  rw [Tx.outcome_bind_of_ok (outcome_getKeeper_of_some hk), if_pos hz]
  rfl

end ChronosKeeper.Anchor
