import ChronosKeeper.Anchor.Updates
import ChronosKeeper.Anchor.Effects

/-!
# Signs of stakes and treasury

The slash arithmetic is written for stakes that are not negative, and nothing but the configured
minimum keeps a keeper from registering with a negative one. In a run no stake and no treasury is
ever negative exactly when no negative stake is registered (`never_negative_iff`). A negative
minimum admits such a registration, and the next slash of that keeper then raises its stake and
takes from the treasury (`negative_stake_and_treasury`).
-/

set_option autoImplicit false

namespace ChronosKeeper.Anchor

open ChronosKeeper.Foundations

variable {Address TokenState : Type} [DecidableEq Address]

/-- No stake and no treasury is negative. -/
structure Nonnegative (env : Env Address TokenState) : Prop where
  stakes : FiniteMap.All (fun k => 0 ≤ k.stakeAmount.val) env.keepers
  treasury : 0 ≤ treasury env

theorem nonnegative_deployed (tokens : TokenState) (ledgerSequence : U32) :
    Nonnegative (deployed tokens ledgerSequence : Env Address TokenState) where
  stakes _ _ h := by cases h
  treasury := le_refl 0

theorem Nonnegative.congr {env env' : Env Address TokenState} (h : Nonnegative env)
    (hkeepers : env'.keepers = env.keepers) (htreasury : env'.treasuryBalance = env.treasuryBalance) :
    Nonnegative env' where
  stakes := hkeepers ▸ h.stakes
  treasury := by
    unfold Anchor.treasury
    rw [htreasury]
    exact h.treasury

/-- A slash returns amounts that are not negative, raises no stake and takes nothing from the
treasury. -/
def SoundSlashes (env : Env Address TokenState) : Prop :=
  ∀ D slashAmount secondaryReward env',
    (applySlash .debug D).outcome env = .ok ((slashAmount, secondaryReward), env') →
      0 ≤ slashAmount.val ∧ 0 ≤ secondaryReward.val ∧
        (∀ a k k', env.keepers.lookup a = some k → env'.keepers.lookup a = some k' →
          k'.stakeAmount.val ≤ k.stakeAmount.val) ∧
        treasury env ≤ treasury env'

/-- A registration that passes its checks brings a stake that is not negative. -/
def RegistersNonnegative (env : Env Address TokenState) : Action Address TokenState → Prop
  | .call inv (.registerKeeper keeper stakeAmount) =>
      Registrable inv env keeper stakeAmount → 0 ≤ stakeAmount.val
  | _ => True

variable {host : Host Address TokenState} {p : Profile} {inv : Invocation Address TokenState}
  {env env' : Env Address TokenState} {taskId : TaskId} {task : ExecutionTask Address}
  {caller : Address}

/-! ## One step -/

theorem graceCredit_nonneg (h : Nonnegative env) (task : ExecutionTask Address) :
    0 ≤ graceCredit env task := by
  unfold graceCredit
  split
  · split
    · rename_i k hk
      exact treasuryPortionOf_nonneg (h.stakes _ k hk)
    · exact le_refl 0
  · exact le_refl 0

theorem Executes.nonnegative (hexec : Executes host .debug inv env taskId task caller env')
    (h : Nonnegative env) : Nonnegative env' where
  stakes := by
    apply hexec.all_keepers h.stakes
    · intro k _ _ hk
      exact hk
    · intro _ k a _ hformula hk
      have hslash := isSlash_of_slashFormula (Or.inl rfl) hformula
      exact (hslash.bounds_of_nonneg hk).2.2.1
  treasury := by
    have hcredit := graceCredit_nonneg h task
    have hold := h.treasury
    rw [hexec.treasury_eq.1]
    omega

theorem Nonnegative.step (h : Nonnegative env) {action : Action Address TokenState}
    (hreg : RegistersNonnegative env action) : Nonnegative (step host .debug env action) := by
  have heffect := step_effect host .debug env action
  generalize Anchor.step host .debug env action = env' at heffect
  cases heffect with
  | registered inv keeper stakeAmount _ hauth hmin hnew =>
      refine ⟨h.stakes.insert ?_ keeper, h.treasury⟩
      exact hreg ⟨hauth, hmin, hnew⟩
  | executed inv taskId caller task env' _ _ _ hexec => exact hexec.nonnegative h
  | idle => exact h
  | initialized => exact h.congr rfl rfl
  | provisioned => exact h.congr rfl rfl
  | closed => exact h.congr rfl rfl
  | transferred => exact h.congr rfl rfl

theorem soundSlashes_of_nonnegative (hW : WellFormed env) (h : Nonnegative env) :
    SoundSlashes env := by
  intro D slashAmount secondaryReward env' hok
  obtain ⟨k, a, t, hk, -, hformula, htreasury, hr, rfl⟩ := outcome_applySlash_eq_ok.1 hok
  cases hr
  have hslash := isSlash_of_slashFormula (Or.inl rfl) hformula
  obtain ⟨hamount, -, -, hnew, hreward, hportion⟩ := hslash.bounds_of_nonneg (h.stakes D k hk)
  refine ⟨hamount, hreward, ?_, ?_⟩
  · intro x kx kx' hx hx'
    rw [lookup_keepers_slashed hW hk] at hx'
    split at hx'
    · rename_i hD
      rw [hD, hk] at hx
      cases hx
      cases hx'
      exact hnew
    · rw [hx] at hx'
      cases hx'
      exact le_refl _
  · have hgrown := treasury_slashed (k := k) (Or.inl rfl) htreasury D
    omega

/-! ## Runs -/

theorem nonnegative_run {actions : List (Action Address TokenState)} {start : Env Address TokenState}
    (h0 : Nonnegative start)
    (hreg : ∀ r ∈ trace (step host .debug) start actions, RegistersNonnegative r.1 r.2) :
    Nonnegative (run (step host .debug) start actions) :=
  run_induction_of_trace h0 (fun _ _ hr h => h.step hr) actions hreg

/-- The stake of a keeper that has just registered is the one it came with. -/
theorem stake_of_registration {keeper : Address} {stakeAmount : I128}
    (hok : Registrable inv env keeper stakeAmount) :
    (step host p env (.call inv (.registerKeeper keeper stakeAmount))).keepers.lookup keeper =
      some (newKeeper keeper stakeAmount) := by
  obtain ⟨hauth, hmin, hnew⟩ := hok
  have hinvoke : invoke host p inv (.registerKeeper keeper stakeAmount) env =
      (.ok .unit, registered env keeper stakeAmount) :=
    invoke_registerKeeper_eq_ok.2 ⟨rfl, hauth, hmin, hnew, rfl⟩
  show (invoke host p inv (.registerKeeper keeper stakeAmount) env).2.keepers.lookup keeper = _
  rw [hinvoke, lookup_keepers_registered, if_pos rfl]

/-- In every state of a run the stakes and the treasury are not negative and slashes are sound,
exactly when every registration that passes its checks brings a stake that is not negative. -/
theorem never_negative_iff (host : Host Address TokenState) (tokens : TokenState)
    (ledgerSequence : U32) (actions : List (Action Address TokenState)) :
    (∀ before after, actions = before ++ after →
      Nonnegative (run (step host .debug) (deployed tokens ledgerSequence) before) ∧
        SoundSlashes (run (step host .debug) (deployed tokens ledgerSequence) before)) ↔
    ∀ r ∈ trace (step host .debug) (deployed tokens ledgerSequence) actions,
      RegistersNonnegative r.1 r.2 := by
  constructor
  · rintro hall ⟨env, action⟩ hr
    obtain ⟨before, after, hactions, rfl⟩ := mem_trace_iff.1 hr
    unfold RegistersNonnegative
    split
    · rename_i inv keeper stakeAmount haction
      cases haction
      intro hok
      -- The state after the registration holds the stake.
      have hsplit : actions = (before ++ [.call inv (.registerKeeper keeper stakeAmount)]) ++
          after := by
        rw [hactions, List.append_assoc]
        rfl
      obtain ⟨hnext, -⟩ := hall _ after hsplit
      rw [run_concat] at hnext
      exact hnext.stakes keeper _ (stake_of_registration hok)
    · trivial
  · rintro hreg before after rfl
    rw [trace_append] at hreg
    have hnonneg := nonnegative_run (nonnegative_deployed tokens ledgerSequence)
      fun r hr => hreg r (List.mem_append_left _ hr)
    exact ⟨hnonneg,
      soundSlashes_of_nonnegative (wellFormed_run host .debug tokens ledgerSequence before)
        hnonneg⟩

/-- A configured minimum that is not negative is enough. -/
theorem registersNonnegative_of_minimum (hmin : ∀ m ∈ env.minKeeperStake, 0 ≤ m.val)
    (action : Action Address TokenState) : RegistersNonnegative env action := by
  unfold RegistersNonnegative
  split
  · rintro ⟨-, hreached, -⟩
    refine le_trans ?_ hreached
    unfold effectiveMinStake
    cases hm : env.minKeeperStake with
    | none => decide
    | some m => exact hmin m hm
  · trivial

/-- With a minimum of -200, a keeper registers with a stake of -200; slashed once, it has a stake of
-190, and the treasury holds -5. -/
theorem negative_stake_and_treasury :
    let env := run (step sampleHost .debug) (deployed (sampleTokens 1000) 0)
      [.call sampleInvocation (.initializeContract 2 1 (MachineInt.wrap .i128 (-200))),
        .call sampleInvocation (.registerKeeper 3 (MachineInt.wrap .i128 (-200))),
        .call sampleInvocation (.registerKeeper 4 500),
        .call sampleInvocation (.provisionTask 5 10 30 3), .closeLedger 11,
        .call sampleInvocation (.executeDripSplit (sampleSha256 (taskSeed 0 0)) 4)]
    (env.keepers.lookup 3).map (fun k => k.stakeAmount.val) = some (-190) ∧
      treasury env = -5 ∧ ¬ Nonnegative env := by
  intro env
  have htreasury : treasury env = -5 := by decide +kernel
  refine ⟨by decide +kernel, htreasury, ?_⟩
  intro hnonneg
  have hle := hnonneg.treasury
  rw [htreasury] at hle
  exact absurd hle (by decide)

end ChronosKeeper.Anchor
