import ChronosKeeper.Anchor.Signs

/-!
# The range of slashable stakes

A slash multiplies the stake by five before it divides, in the type of the stake, and it credits
the treasury in the same type. Registration bounds the stake from below only. `TakesFivePercent`
says that a slash is the one over the integers; for a positive stake it is, in either build
profile, exactly when `stake * 5` and the credited treasury fit (`takesFivePercent_iff`).

Slashes never raise a stake for which the product fits, so over the life of a keeper the first of
the two conditions is one on the stake it registers with (`slash_is_five_percent_iff`). A stake of
`i128::MAX` is accepted and cannot be slashed (`unslashable_stake`).
-/

set_option autoImplicit false

namespace ChronosKeeper.Anchor

open ChronosKeeper.Foundations

variable {Address TokenState : Type} [DecidableEq Address]

/-- A slash of the record `k` of the keeper `D`, over the integers. -/
structure IsFivePercent (env env' : Env Address TokenState) (D : Address) (k : Keeper Address)
    (amount reward : I128) : Prop where
  slashAmount : amount.val = k.stakeAmount.val * 5 / 100
  bounds : 0 ≤ amount.val ∧ amount.val ≤ k.stakeAmount.val
  newStake : ∃ k', env'.keepers.lookup D = some k' ∧
    k'.stakeAmount.val = k.stakeAmount.val - amount.val
  secondaryReward : reward.val = amount.val / 2
  treasury : reward.val + (treasury env' - treasury env) = amount.val

/-- A slash of the keeper succeeds and takes exactly five percent of its stake. -/
def TakesFivePercent (p : Profile) (env : Env Address TokenState) (D : Address) : Prop :=
  ∃ k slashAmount secondaryReward env', env.keepers.lookup D = some k ∧
    (applySlash p D).outcome env = .ok ((slashAmount, secondaryReward), env') ∧
    IsFivePercent env env' D k slashAmount secondaryReward

/-- The treasury can be credited with its portion of a slash of the keeper. -/
def TreasuryHasRoom (env : Env Address TokenState) (D : Address) : Prop :=
  ∀ k, env.keepers.lookup D = some k →
    treasury env + treasuryPortionOf k.stakeAmount.val ≤ IntTy.i128.max

variable {host : Host Address TokenState} {p : Profile} {env : Env Address TokenState}
  {D : Address} {k : Keeper Address}

/-! ## One slash -/

omit [DecidableEq Address] in
/-- A slash amount of five percent shows that the product fits: a wrapped product is smaller than
the exact one by the size of the type at least. -/
theorem product_fits_of_slashFormula {s : I128} {a : SlashAmounts}
    (h : slashFormula p s = some a) (hfive : a.slashAmount.val = s.val * 5 / 100) :
    s.val * 5 ≤ IntTy.i128.max := by
  cases p with
  | debug => exact (inRange_of_slashFormula_debug h).2
  | release =>
      obtain ⟨product, hproduct, hslash, -, -⟩ := steps_of_slashFormula h
      have hwrap : IntTy.i128.min + (s.val * 5 - IntTy.i128.min) % IntTy.i128.size =
          product.val := congrArg MachineInt.val (Option.some.inj hproduct)
      have hmin : IntTy.i128.min = -170141183460469231731687303715884105728 := rfl
      have hmax : IntTy.i128.max = 170141183460469231731687303715884105727 := rfl
      have hsize : IntTy.i128.size = 340282366920938463463374607431768211456 := rfl
      rw [hmin, hsize] at hwrap
      rw [hmax]
      by_contra hlarge
      -- the division rounds toward zero, so its bounds depend on the sign of the wrapped product
      rcases le_or_gt 0 product.val with hsign | hsign
      · have hq := MachineInt.tdiv_spec_of_nonneg (b := 100) hsign (by omega)
        rw [← hslash] at hq
        omega
      · have hq := MachineInt.tdiv_spec_of_nonpos (b := 100) hsign.le (by omega)
        rw [← hslash] at hq
        omega

/-- A positive stake is slashed by five percent exactly when the product and the treasury fit. -/
theorem takesFivePercent_iff (h : WellFormed env) (hk : env.keepers.lookup D = some k)
    (hs : 0 < k.stakeAmount.val) :
    TakesFivePercent p env D ↔
      k.stakeAmount.val * 5 ≤ IntTy.i128.max ∧
        treasury env + treasuryPortionOf k.stakeAmount.val ≤ IntTy.i128.max := by
  have hmin : IntTy.i128.min ≤ 0 := by decide
  constructor
  · rintro ⟨k', slashAmount, secondaryReward, env', hk', hok, hfive⟩
    obtain ⟨k'', a, t, hk'', -, hformula, htreasury, hr, rfl⟩ := outcome_applySlash_eq_ok.1 hok
    cases hr
    -- the three records are the one of the keeper
    rw [hk] at hk' hk''
    cases hk'
    cases hk''
    have hproduct := product_fits_of_slashFormula hformula hfive.slashAmount
    have hslash := isSlash_of_slashFormula (Or.inr ⟨by omega, hproduct⟩) hformula
    -- The credited treasury is the exact sum, and it lies in the range as a value of the type.
    have hcredited : t.val = treasury env + treasuryPortionOf k.stakeAmount.val := by
      have hsplit : a.secondaryReward.val + (t.val - treasury env) = a.slashAmount.val :=
        hfive.treasury
      have hportion := hslash.treasuryPortion
      rw [← hslash.treasuryPortion_eq]
      omega
    exact ⟨hproduct, hcredited ▸ t.inRange.2⟩
  · rintro ⟨hproduct, hroom⟩
    obtain ⟨a, hformula, hslash⟩ := slashFormula_of_inRange p (s := k.stakeAmount)
      ⟨by omega, hproduct⟩
    obtain ⟨hfloor, hhalf⟩ := hslash.floor_of_nonneg hs.le
    obtain ⟨hamount, hle, -, -, -, hportion⟩ := hslash.bounds_of_nonneg hs.le
    have hval := hslash.treasuryPortion_eq
    -- the treasury is credited without overflow
    have hsum : IntTy.i128.InRange ((env.treasuryBalance.getD 0).val + a.treasuryPortion.val) := by
      have hlow := (env.treasuryBalance.getD 0).inRange.1
      refine ⟨by omega, ?_⟩
      rw [hval]
      exact hroom
    have hadd : p.add (env.treasuryBalance.getD 0) a.treasuryPortion = some ⟨_, hsum⟩ :=
      p.fit_of_inRange hsum
    have hne : k.stakeAmount ≠ 0 := by
      intro hzero
      have hval0 : k.stakeAmount.val = 0 := MachineInt.eq_iff.1 hzero
      omega
    refine ⟨k, a.slashAmount, a.secondaryReward, _, hk,
      outcome_applySlash_eq_ok.2 ⟨k, a, _, hk, hne, hformula, hadd, rfl, rfl⟩, ?_⟩
    refine ⟨hfloor, ⟨hamount, hle⟩, ⟨slashedKeeper k a.newStake, ?_, hslash.newStake⟩, ?_, ?_⟩
    · rw [lookup_keepers_slashed h hk, if_pos rfl]
    · rw [hhalf, hfloor]
    · have hgrown : treasury (slashed env D k a ⟨_, hsum⟩) =
          treasury env + a.treasuryPortion.val := rfl
      have hrest := hslash.treasuryPortion
      omega

/-! ## The life of a keeper -/

/-- The keeper is registered, with a positive stake of at most `s`. -/
structure HoldsAtMost (s : Int) (D : Address) (env : Env Address TokenState) : Prop where
  wellFormed : WellFormed env
  registered : ∃ k, env.keepers.lookup D = some k
  stakes : FiniteMap.All
    (fun k => k.address = D → 0 < k.stakeAmount.val ∧ k.stakeAmount.val ≤ s) env.keepers

theorem HoldsAtMost.stake {s : Int} (h : HoldsAtMost s D env)
    (hk : env.keepers.lookup D = some k) : 0 < k.stakeAmount.val ∧ k.stakeAmount.val ≤ s :=
  h.stakes D k hk (h.wellFormed.keeperAddress hk)

/-- While the product fits, no step raises the stake or takes all of it. -/
theorem HoldsAtMost.step {s : Int} (hs : s * 5 ≤ IntTy.i128.max) (h : HoldsAtMost s D env)
    (action : Action Address TokenState) : HoldsAtMost s D (step host p env action) := by
  obtain ⟨k, hk⟩ := h.registered
  refine ⟨h.wellFormed.step action, keepers_persist hk action, ?_⟩
  have heffect := step_effect host p env action
  generalize Anchor.step host p env action = env' at heffect
  cases heffect with
  | registered inv keeper stakeAmount _ _ _ hnew =>
      -- a registered keeper does not register again, so the new record is another one
      apply h.stakes.insert
      rintro rfl
      rw [show env.keepers.lookup keeper = some k from hk] at hnew
      cases hnew
  | executed inv taskId caller task env' _ _ _ hexec =>
      -- crediting a record keeps its stake, slashing it leaves a positive rest
      apply hexec.all_keepers h.stakes
      · intro k _ _ hstake
        exact hstake
      · intro _ k a _ hformula hstake haddress
        obtain ⟨hpos, hle⟩ := hstake haddress
        have hmin : IntTy.i128.min ≤ 0 := by decide
        have hslash := isSlash_of_slashFormula (Or.inr ⟨by omega, by omega⟩) hformula
        have hnew : 1 ≤ a.newStake.val := hslash.newStake_pos hpos
        obtain ⟨-, -, -, hnewle, -, -⟩ := hslash.bounds_of_nonneg hpos.le
        exact ⟨hnew, hnewle.trans hle⟩
  | idle => exact h.stakes
  | initialized => exact h.stakes
  | provisioned => exact h.stakes
  | closed => exact h.stakes
  | transferred => exact h.stakes

theorem holdsAtMost_of_registration {inv : Invocation Address TokenState} {stakeAmount : I128}
    (h : WellFormed env) (hreg : Registrable inv env D stakeAmount) (hpos : 0 < stakeAmount.val) :
    HoldsAtMost stakeAmount.val D
      (step host p env (.call inv (.registerKeeper D stakeAmount))) := by
  have hstored : (step host p env (.call inv (.registerKeeper D stakeAmount))).keepers.lookup D =
      some (newKeeper D stakeAmount) := stake_of_registration hreg
  have hW : WellFormed (step host p env (.call inv (.registerKeeper D stakeAmount))) := h.step _
  refine ⟨hW, ⟨_, hstored⟩, ?_⟩
  intro a k hk haddress
  -- The record that names the keeper is the one just written.
  have ha : a = D := (hW.keeperAddress hk).symm.trans haddress
  rw [ha, hstored] at hk
  cases hk
  exact ⟨hpos, le_refl _⟩

/-- From the registration of a keeper with a positive stake on, its slashes take exactly five
percent in every state of a run, exactly when five times the registered stake fits and the
treasury has room for its portion in every state. -/
theorem slash_is_five_percent_iff (host : Host Address TokenState) (p : Profile)
    (tokens : TokenState) (ledgerSequence : U32)
    (before after : List (Action Address TokenState)) (inv : Invocation Address TokenState)
    (D : Address) (stakeAmount : I128)
    (hreg : Registrable inv (run (step host p) (deployed tokens ledgerSequence) before) D
      stakeAmount)
    (hpos : 0 < stakeAmount.val) :
    let start := step host p (run (step host p) (deployed tokens ledgerSequence) before)
      (.call inv (.registerKeeper D stakeAmount))
    (∀ pre post, after = pre ++ post → TakesFivePercent p (run (step host p) start pre) D) ↔
      stakeAmount.val * 5 ≤ IntTy.i128.max ∧
        ∀ pre post, after = pre ++ post → TreasuryHasRoom (run (step host p) start pre) D := by
  intro start
  have hW := wellFormed_run host p tokens ledgerSequence before
  have hstart : HoldsAtMost stakeAmount.val D start := holdsAtMost_of_registration hW hreg hpos
  have hlater : stakeAmount.val * 5 ≤ IntTy.i128.max →
      ∀ pre, HoldsAtMost stakeAmount.val D (run (step host p) start pre) := fun hfits pre =>
    run_induction hstart (fun _ action h => h.step hfits action) pre
  constructor
  · intro hall
    -- The first state holds the registered stake.
    have hfits : stakeAmount.val * 5 ≤ IntTy.i128.max := by
      have hfirst := hall [] after rfl
      rw [run_nil, takesFivePercent_iff hstart.wellFormed (stake_of_registration hreg) hpos]
        at hfirst
      exact hfirst.1
    refine ⟨hfits, ?_⟩
    intro pre post hsplit k hk
    -- the later states hold a part of it
    have hat := hlater hfits pre
    have hslash := hall pre post hsplit
    rw [takesFivePercent_iff hat.wellFormed hk (hat.stake hk).1] at hslash
    exact hslash.2
  · rintro ⟨hfits, hroom⟩ pre post hsplit
    have hat := hlater hfits pre
    obtain ⟨k, hk⟩ := hat.registered
    obtain ⟨hstake, hle⟩ := hat.stake hk
    rw [takesFivePercent_iff hat.wellFormed hk hstake]
    exact ⟨by omega, hroom pre post hsplit k hk⟩

/-- A keeper registers with a stake of `i128::MAX` and misses its window. Where overflow aborts, the
execution that would slash it traps; where it wraps, one percent is taken in place of five. -/
theorem unslashable_stake :
    let largest : I128 := MachineInt.wrap .i128 IntTy.i128.max
    let actions : List (Action Nat (TokenLedger Nat)) :=
      [.call sampleInvocation (.initializeContract 2 1 1),
        .call sampleInvocation (.registerKeeper 3 largest),
        .call sampleInvocation (.registerKeeper 4 500),
        .call sampleInvocation (.provisionTask 5 10 30 3), .closeLedger 11]
    let env (p : Profile) := run (step sampleHost p) (deployed (sampleTokens 1000) 0) actions
    let execute : Call Nat := .executeDripSplit (sampleSha256 (taskSeed 0 0)) 4
    (∀ p, ((env p).keepers.lookup 3).map (fun k => k.stakeAmount.val) = some IntTy.i128.max) ∧
      (invoke sampleHost .debug sampleInvocation execute (env .debug)).1 = .error .trap ∧
      ((applySlash .release 3).result (env .release)).map (fun r => r.1.val) =
        .ok (IntTy.i128.max / 100) ∧
      ∀ p, ¬ TakesFivePercent p (env p) 3 := by
  intro largest actions env execute
  have hstored : ∀ p, (env p).keepers.lookup 3 = some (newKeeper 3 largest) := by
    intro p
    cases p <;> decide +kernel
  refine ⟨?_, by decide +kernel, by decide +kernel, ?_⟩
  · intro p
    rw [hstored p]
    decide
  · intro p htakes
    rw [takesFivePercent_iff (wellFormed_run sampleHost p (sampleTokens 1000) 0 actions)
      (hstored p) (by decide)] at htakes
    exact absurd htakes.1 (by decide)

/-- A keeper that has just registered with a stake of 400. -/
theorem slash_is_five_percent_sample :
    let start := step sampleHost .release
      (run (step sampleHost .release) (deployed (sampleTokens 1000) 0)
        [.call sampleInvocation (.initializeContract 2 1 1)])
      (.call sampleInvocation (.registerKeeper 3 400))
    TakesFivePercent .release start 3 := by
  intro start
  refine (slash_is_five_percent_iff sampleHost .release (sampleTokens 1000) 0
    [.call sampleInvocation (.initializeContract 2 1 1)] [] sampleInvocation 3 400 (by decide +kernel)
    (by decide)).2 ⟨by decide, ?_⟩ [] [] rfl
  intro pre post hsplit k hk
  obtain ⟨rfl, -⟩ := List.append_eq_nil_iff.1 hsplit.symm
  have hstored : start.keepers.lookup 3 = some (newKeeper 3 400) := by decide +kernel
  cases hk.symm.trans hstored
  decide +kernel

end ChronosKeeper.Anchor
