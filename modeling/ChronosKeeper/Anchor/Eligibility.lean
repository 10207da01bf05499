import ChronosKeeper.Anchor.SlashHistory

/-!
# Eligibility

Which keepers may be designated for a new task, and which may claim a missed window.

The ineligible flag is set by a slash that leaves the stake below the compile-time constant, while
registration enforces the on-chain minimum. The flag tracks the effective minimum in every run in
which the two thresholds agree on the slashed stakes (`ineligible_iff_below_minimum`); with a
configured minimum above the constant they need not
(`eligible_below_minimum`).

A secondary execution asks only that its caller is registered. The caller was registered before
the window opened in every run in which nobody registers during the grace period of a stored task
(`registered_before_window`); otherwise a keeper may register within the window and claim it
(`registered_within_window`).
-/

set_option autoImplicit false

namespace ChronosKeeper.Anchor

open ChronosKeeper.Foundations

variable {Address TokenState : Type}

/-! ## The flag and the minimum stake -/

/-- The flag of the record says whether its stake is below `m`; a flagged stake is not negative. -/
structure Tracks (m : Int) (k : Keeper Address) : Prop where
  flag : k.ineligible = true ↔ k.stakeAmount.val < m
  nonneg : k.ineligible = true → 0 ≤ k.stakeAmount.val

theorem tracks_newKeeper {m : Int} (keeper : Address) {stakeAmount : I128}
    (h : m ≤ stakeAmount.val) : Tracks m (newKeeper keeper stakeAmount) where
  flag := by
    constructor
    · intro hflag
      cases hflag
    · intro hlt
      exact absurd hlt (not_lt.2 h)
  nonneg hflag := by cases hflag

theorem Tracks.executedKeeper {m : Int} {k : Keeper Address} (h : Tracks m k)
    (totalExecutions : U64) (currentLedger : U32) :
    Tracks m (executedKeeper k totalExecutions currentLedger) :=
  ⟨h.flag, h.nonneg⟩

/-- A slash keeps the flag in step with `m` if it leaves an unflagged stake below `m` exactly when
it leaves it below the constant. -/
theorem Tracks.slashedKeeper {m : Int} {k : Keeper Address} {a : SlashAmounts} (h : Tracks m k)
    (hslash : IsSlash k.stakeAmount.val a)
    (hagree : k.ineligible = false →
      (a.newStake.val < MIN_KEEPER_STAKE.val ↔ a.newStake.val < m)) :
    Tracks m (slashedKeeper k a.newStake) := by
  have hconst := val_MIN_KEEPER_STAKE
  cases hflag : k.ineligible with
  | true =>
      -- An ineligible keeper stays so: its stake was below `m` and has not grown.
      have hs := h.nonneg hflag
      have hbelow := h.flag.1 hflag
      obtain ⟨-, -, hnew0, hnew, -, -⟩ := hslash.bounds_of_nonneg hs
      -- The code never clears the flag.
      have hstill : (Anchor.slashedKeeper k a.newStake).ineligible = true := by
        show (if _ then true else k.ineligible) = true
        rw [hflag, ite_self]
      refine ⟨⟨fun _ => ?_, fun _ => hstill⟩, fun _ => hnew0⟩
      show a.newStake.val < m
      omega
  | false =>
      have hagree' := hagree hflag
      have hset : (Anchor.slashedKeeper k a.newStake).ineligible = true ↔
          a.newStake.val < MIN_KEEPER_STAKE.val := by
        show (if a.newStake < MIN_KEEPER_STAKE then true else k.ineligible) = true ↔ _
        rw [hflag]
        simp [MachineInt.lt_iff]
      refine ⟨hset.trans hagree', fun hnow => ?_⟩
      show 0 ≤ a.newStake.val
      have hbelow := hset.1 hnow
      rcases le_or_gt 0 k.stakeAmount.val with hs | hs
      · exact (hslash.bounds_of_nonneg hs).2.2.1
      · -- A negative stake grows, so it cannot fall below a minimum it had reached.
        obtain ⟨-, -, hgrow, -, -, -⟩ := hslash.bounds_of_nonpos hs.le
        have hreached : ¬ k.stakeAmount.val < m := fun hlt => by
          rw [h.flag.2 hlt] at hflag
          cases hflag
        have hcross := hagree'.1 hbelow
        omega

variable [DecidableEq Address]

/-- The two thresholds agree on the stake that a slash for the task would leave. -/
def ThresholdsAgree (p : Profile) (env : Env Address TokenState) (task : ExecutionTask Address) :
    Prop :=
  InGrace env task → ∀ k ∈ env.keepers.lookup task.designatedKeeper,
    (p = .debug ∨ IntTy.i128.InRange (k.stakeAmount.val * 5)) ∧
      (k.ineligible = false → (slashedStake k.stakeAmount.val < MIN_KEEPER_STAKE.val ↔
        slashedStake k.stakeAmount.val < (effectiveMinStake env).val))

instance (p : Profile) (env : Env Address TokenState) (task : ExecutionTask Address) :
    Decidable (ThresholdsAgree p env task) :=
  inferInstanceAs (Decidable (InGrace env task → ∀ k ∈ env.keepers.lookup task.designatedKeeper,
    (p = .debug ∨ IntTy.i128.InRange (k.stakeAmount.val * 5)) ∧
      (k.ineligible = false → (slashedStake k.stakeAmount.val < MIN_KEEPER_STAKE.val ↔
        slashedStake k.stakeAmount.val < (effectiveMinStake env).val))))

/-- An initialisation sets no minimum above a registered stake, and a secondary execution slashes
no stake to between the two thresholds. -/
def KeepsMinimum (host : Host Address TokenState) (p : Profile) (env : Env Address TokenState) :
    Action Address TokenState → Prop
  | .call inv (.initializeContract admin _ minKeeperStake) =>
      env.admin = none → inv.authorized admin = true →
        FiniteMap.All (fun k => minKeeperStake.val ≤ k.stakeAmount.val) env.keepers
  | .call inv (.executeDripSplit taskId caller) =>
      ∀ task ∈ env.tasks.lookup taskId, admitted host inv env task caller = true →
        ThresholdsAgree p env task
  | _ => True

instance (host : Host Address TokenState) (p : Profile) (env : Env Address TokenState) :
    (action : Action Address TokenState) → Decidable (KeepsMinimum host p env action)
  | .call inv (.initializeContract admin _ minKeeperStake) =>
      inferInstanceAs (Decidable (env.admin = none → inv.authorized admin = true →
        FiniteMap.All (fun k => minKeeperStake.val ≤ k.stakeAmount.val) env.keepers))
  | .call inv (.executeDripSplit taskId caller) =>
      inferInstanceAs (Decidable (∀ task ∈ env.tasks.lookup taskId,
        admitted host inv env task caller = true → ThresholdsAgree p env task))
  | .call _ (.registerKeeper _ _) => isTrue trivial
  | .call _ (.getKeeper _) => isTrue trivial
  | .call _ (.provisionTask _ _ _ _) => isTrue trivial
  | .call _ (.getTask _) => isTrue trivial
  | .closeLedger _ => isTrue trivial
  | .transfer _ _ _ _ => isTrue trivial

/-- Every flag tracks the effective minimum, and none is set before the initialisation. -/
structure FlagsTrack (env : Env Address TokenState) : Prop where
  tracks : FiniteMap.All (Tracks (effectiveMinStake env).val) env.keepers
  unflagged : env.admin = none → FiniteMap.All (fun k => k.ineligible = false) env.keepers

variable {host : Host Address TokenState} {p : Profile} {env env' : Env Address TokenState}

theorem flagsTrack_deployed (tokens : TokenState) (ledgerSequence : U32) :
    FlagsTrack (deployed tokens ledgerSequence : Env Address TokenState) where
  tracks a k h := by cases h
  unflagged _ a k h := by cases h

theorem flagsTrack_step {action : Action Address TokenState} (h : WellFormed env)
    (hkeeps : KeepsMinimum host p env action) (hf : FlagsTrack env) :
    FlagsTrack (step host p env action) := by
  have heffect := step_effect host p env action
  generalize step host p env action = env' at heffect
  cases heffect with
  | idle => exact hf
  | initialized inv admin nativeToken minKeeperStake _ hnone hauth =>
      have hall := hkeeps hnone hauth
      refine ⟨?_, fun hadmin => nomatch hadmin⟩
      intro a k hk
      -- Nobody was slashed before the initialisation, so every flag is clear.
      have hunflagged : k.ineligible = false := hf.unflagged hnone a k hk
      have hmin : minKeeperStake.val ≤ k.stakeAmount.val := hall a k hk
      show Tracks minKeeperStake.val k
      constructor
      · rw [hunflagged]
        constructor
        · intro hfalse
          cases hfalse
        · intro hlt
          exact absurd hlt (not_lt.2 hmin)
      · intro hflag
        rw [hunflagged] at hflag
        cases hflag
  | registered inv keeper stakeAmount _ _ hmin =>
      exact ⟨hf.tracks.insert (tracks_newKeeper keeper hmin) keeper,
        fun hnone => (hf.unflagged hnone).insert rfl keeper⟩
  | executed inv taskId caller task env' _ htask hauth hexec =>
      obtain ⟨-, hadmin, -, hminEq, -⟩ := hexec.instance_eq
      have heffective : effectiveMinStake env' = effectiveMinStake env := by
        unfold effectiveMinStake
        rw [hminEq]
      refine ⟨?_, ?_⟩
      · rw [heffective]
        refine hexec.all_keepers hf.tracks (fun k n l hk => hk.executedKeeper n l) ?_
        intro hgrace k a hk hformula htracks
        obtain ⟨hexact, hthresholds⟩ := hkeeps task htask (hexec.admitted hauth) hgrace k hk
        have hslash := isSlash_of_slashFormula hexact hformula
        rw [← hslash.newStake_eq] at hthresholds
        exact htracks.slashedKeeper hslash hthresholds
      · -- A task is stored, so the contract is initialised.
        intro hnone
        rw [hadmin, ← h.nativeToken_iff] at hnone
        obtain ⟨token, htoken⟩ := h.configured htask
        rw [hnone] at htoken
        cases htoken
  | provisioned => exact ⟨hf.tracks, hf.unflagged⟩
  | closed => exact ⟨hf.tracks, hf.unflagged⟩
  | transferred => exact ⟨hf.tracks, hf.unflagged⟩

/-- In every run in which the thresholds agree, a keeper is ineligible exactly when its stake is
below the effective minimum, and tasks are provisioned only for keepers that reach it. -/
theorem ineligible_iff_below_minimum (host : Host Address TokenState) (p : Profile)
    (tokens : TokenState) (ledgerSequence : U32) (actions : List (Action Address TokenState))
    (hkeeps : ∀ r ∈ trace (step host p) (deployed tokens ledgerSequence) actions,
      KeepsMinimum host p r.1 r.2) :
    let env := run (step host p) (deployed tokens ledgerSequence) actions
    FiniteMap.All (fun k => k.ineligible = true ↔
        k.stakeAmount.val < (effectiveMinStake env).val) env.keepers ∧
      ∀ inv targetDripList interval reward designatedKeeper,
        Succeeds host p inv (.provisionTask targetDripList interval reward designatedKeeper) env →
          ∃ k, env.keepers.lookup designatedKeeper = some k ∧
            (effectiveMinStake env).val ≤ k.stakeAmount.val := by
  intro env
  have hboth := run_induction_of_trace (P := fun env => WellFormed env ∧ FlagsTrack env)
    ⟨wellFormed_deployed tokens ledgerSequence, flagsTrack_deployed tokens ledgerSequence⟩
    (fun _ action hk h => ⟨h.1.step action, flagsTrack_step h.1 hk h.2⟩) actions hkeeps
  have htracks : FiniteMap.All (Tracks (effectiveMinStake env).val) env.keepers := hboth.2.tracks
  refine ⟨fun a k hk => (htracks a k hk).flag, ?_⟩
  intro inv targetDripList interval reward designatedKeeper hok
  obtain ⟨v, hv⟩ := invoke_of_succeeds hok
  obtain ⟨taskId, nextCounter, next, -, htask, -⟩ := invoke_provisionTask_eq_ok.1 hv
  obtain ⟨k, hk, heligible⟩ := htask.designated
  refine ⟨k, hk, ?_⟩
  by_contra hbelow
  rw [(htracks _ k hk).flag.2 (not_le.1 hbelow)] at heligible
  cases heligible

/-- With a configured minimum of 2 XLM, a keeper slashed from 2 XLM to 1.9 XLM is still eligible,
and the next task is provisioned for it. -/
theorem eligible_below_minimum :
    let env := run (step sampleHost .debug) (deployed (sampleTokens 90000000) 0)
      [.call sampleInvocation (.initializeContract 2 1 20000000),
        .call sampleInvocation (.registerKeeper 3 20000000),
        .call sampleInvocation (.registerKeeper 4 20000000),
        .call sampleInvocation (.provisionTask 5 10 30 3), .closeLedger 11,
        .call sampleInvocation (.executeDripSplit (sampleSha256 (taskSeed 0 0)) 4)]
    ¬ FiniteMap.All (fun k => k.ineligible = true ↔
        k.stakeAmount.val < (effectiveMinStake env).val) env.keepers ∧
      Succeeds sampleHost .debug sampleInvocation (.provisionTask 5 10 30 3) env := by
  decide +kernel

/-- With the compile-time minimum, the flag follows a slash below it. -/
theorem ineligible_iff_below_minimum_sample :
    let env := run (step sampleHost .debug) (deployed (sampleTokens 90000000) 0)
      [.call sampleInvocation (.initializeContract 2 1 10000000),
        .call sampleInvocation (.registerKeeper 3 10000000),
        .call sampleInvocation (.registerKeeper 4 20000000),
        .call sampleInvocation (.provisionTask 5 10 30 3), .closeLedger 11,
        .call sampleInvocation (.executeDripSplit (sampleSha256 (taskSeed 0 0)) 4)]
    FiniteMap.All (fun k => k.ineligible = true ↔
      k.stakeAmount.val < (effectiveMinStake env).val) env.keepers :=
  (ineligible_iff_below_minimum sampleHost .debug (sampleTokens 90000000) 0 _
    (by decide +kernel)).1

/-! ## Registration before the window -/

/-- The action is a successful registration of the keeper. -/
def isRegistration (host : Host Address TokenState) (p : Profile) (keeper : Address)
    (env : Env Address TokenState) : Action Address TokenState → Bool
  | .call inv (.registerKeeper keeper' stakeAmount) =>
      decide (keeper' = keeper ∧ Succeeds host p inv (.registerKeeper keeper' stakeAmount) env)
  | _ => false

theorem isRegistration_iff {keeper : Address} {action : Action Address TokenState} :
    isRegistration host p keeper env action = true ↔
      ∃ inv stakeAmount, action = .call inv (.registerKeeper keeper stakeAmount) ∧
        Succeeds host p inv (.registerKeeper keeper stakeAmount) env := by
  constructor
  · intro h
    unfold isRegistration at h
    split at h
    · rename_i inv keeper' stakeAmount
      obtain ⟨rfl, hok⟩ := of_decide_eq_true h
      exact ⟨inv, stakeAmount, rfl, hok⟩
    · cases h
  · rintro ⟨inv, stakeAmount, rfl, hok⟩
    exact decide_eq_true ⟨rfl, hok⟩

/-- Only keepers registered before a window opened claim it in its grace period. -/
structure RegisteredInTime (host : Host Address TokenState) (p : Profile)
    (start : Env Address TokenState) (actions : List (Action Address TokenState)) : Prop where
  /-- Every secondary execution is by a caller whose registration succeeded earlier in the run, at
  a ledger no later than the one the task was scheduled for. -/
  executes : ∀ before after inv taskId caller task,
    actions = before ++ .call inv (.executeDripSplit taskId caller) :: after →
    (run (step host p) start before).tasks.lookup taskId = some task →
    InGrace (run (step host p) start before) task →
    Succeeds host p inv (.executeDripSplit taskId caller) (run (step host p) start before) →
      ∃ r ∈ trace (step host p) start before, isRegistration host p caller r.1 r.2 = true ∧
        r.1.ledgerSequence.val ≤ task.nextAllowedExecution.val
  /-- A keeper whose registration succeeded after that ledger is rejected. -/
  rejects : ∀ before mid after inv inv' keeper stakeAmount taskId task,
    actions = before ++ .call inv (.registerKeeper keeper stakeAmount) ::
      (mid ++ .call inv' (.executeDripSplit taskId keeper) :: after) →
    Succeeds host p inv (.registerKeeper keeper stakeAmount) (run (step host p) start before) →
    (run (step host p) (step host p (run (step host p) start before)
      (.call inv (.registerKeeper keeper stakeAmount))) mid).tasks.lookup taskId = some task →
    task.nextAllowedExecution.val < (run (step host p) start before).ledgerSequence.val →
    InGrace (run (step host p) (step host p (run (step host p) start before)
      (.call inv (.registerKeeper keeper stakeAmount))) mid) task →
      (invoke host p inv' (.executeDripSplit taskId keeper)
        (run (step host p) (step host p (run (step host p) start before)
          (.call inv (.registerKeeper keeper stakeAmount))) mid)).1 =
        .error (.error .callerNotSecondaryEligible)

/-- A registration that passes its checks finds no stored task in its grace period, and the
schedule of a task is computed without wrap-around. -/
def RegistersOutsideGrace (p : Profile) (env : Env Address TokenState) :
    Action Address TokenState → Prop
  | .call inv (.registerKeeper keeper stakeAmount) =>
      Registrable inv env keeper stakeAmount →
        FiniteMap.All (fun task => ¬ InGrace env task) env.tasks
  | .call _ (.provisionTask _ executionIntervalLedgers _ _) =>
      p = .debug ∨ IntTy.u32.InRange (env.ledgerSequence.val + executionIntervalLedgers.val)
  | .call _ (.executeDripSplit taskId _) =>
      ∀ task ∈ env.tasks.lookup taskId, p = .debug ∨
        IntTy.u32.InRange (env.ledgerSequence.val + task.executionIntervalLedgers.val)
  | _ => True

instance (p : Profile) (env : Env Address TokenState) :
    (action : Action Address TokenState) → Decidable (RegistersOutsideGrace p env action)
  | .call inv (.registerKeeper keeper stakeAmount) =>
      inferInstanceAs (Decidable (Registrable inv env keeper stakeAmount →
        FiniteMap.All (fun task => ¬ InGrace env task) env.tasks))
  | .call _ (.provisionTask _ executionIntervalLedgers _ _) =>
      inferInstanceAs (Decidable (p = .debug ∨
        IntTy.u32.InRange (env.ledgerSequence.val + executionIntervalLedgers.val)))
  | .call _ (.executeDripSplit taskId _) =>
      inferInstanceAs (Decidable (∀ task ∈ env.tasks.lookup taskId, p = .debug ∨
        IntTy.u32.InRange (env.ledgerSequence.val + task.executionIntervalLedgers.val)))
  | .call _ (.initializeContract _ _ _) => isTrue trivial
  | .call _ (.getKeeper _) => isTrue trivial
  | .call _ (.getTask _) => isTrue trivial
  | .closeLedger _ => isTrue trivial
  | .transfer _ _ _ _ => isTrue trivial

/-- An execution registers nobody. -/
theorem Executes.registered_of_lookup {inv : Invocation Address TokenState} {taskId : TaskId}
    {task : ExecutionTask Address} {caller : Address}
    (hexec : Executes host p inv env taskId task caller env') (h : WellFormed env) {a : Address} {k : Keeper Address}
    (hk : env'.keepers.lookup a = some k) : ∃ k', env.keepers.lookup a = some k' := by
  cases hexec with
  | designated d _ _ hd =>
      rw [lookup_keepers_distributed task h hd.keeper] at hk
      split at hk
      · rename_i ha
        exact ⟨d.keeper, ha ▸ hd.keeper⟩
      · exact ⟨k, hk⟩
  | postGrace elapsed d _ _ _ hd =>
      rw [lookup_keepers_distributed task (h.missed taskId elapsed) hd.keeper] at hk
      split at hk
      · rename_i ha
        exact ⟨d.keeper, ha ▸ hd.keeper⟩
      · exact ⟨k, hk⟩
  | grace kd amounts t d st _ _ hcaller _ hkd _ _ _ hd =>
      have hcallerKeeper := hd.keeper
      rw [lookup_keepers_grace h hkd amounts t st hd.keeper] at hk
      rw [lookup_caller_of_slashed h hkd hcaller] at hcallerKeeper
      split at hk
      · rename_i ha
        exact ⟨d.keeper, ha ▸ hcallerKeeper⟩
      · split at hk
        · rename_i ha
          exact ⟨kd, ha ▸ hkd⟩
        · exact ⟨k, hk⟩

/-- A keeper that is registered after a step was so before it, or is registered by it. -/
theorem registered_of_lookup_step (h : WellFormed env) {action : Action Address TokenState}
    {a : Address} {k : Keeper Address}
    (hk : (step host p env action).keepers.lookup a = some k) :
    (∃ k', env.keepers.lookup a = some k') ∨ isRegistration host p a env action = true := by
  have heffect := step_effect host p env action
  generalize step host p env action = env' at heffect hk
  cases heffect with
  | registered inv keeper stakeAmount hok =>
      rw [lookup_keepers_registered] at hk
      split at hk
      · rename_i ha
        exact Or.inr (decide_eq_true ⟨ha.symm, hok⟩)
      · exact Or.inl ⟨k, hk⟩
  | executed inv taskId caller task env' _ _ _ hexec =>
      exact Or.inl (hexec.registered_of_lookup h hk)
  | idle => exact Or.inl ⟨k, hk⟩
  | initialized => exact Or.inl ⟨k, hk⟩
  | provisioned => exact Or.inl ⟨k, hk⟩
  | closed => exact Or.inl ⟨k, hk⟩
  | transferred => exact Or.inl ⟨k, hk⟩

/-- A task that is stored after a step was stored with the same schedule before it, or is
scheduled for the current ledger or later. -/
theorem schedule_of_lookup_step (h : WellFormed env) {action : Action Address TokenState}
    (houtside : RegistersOutsideGrace p env action) {id : TaskId}
    {t : ExecutionTask Address} (ht : (step host p env action).tasks.lookup id = some t) :
    (∃ t', env.tasks.lookup id = some t' ∧ t'.nextAllowedExecution = t.nextAllowedExecution) ∨
      env.ledgerSequence.val ≤ t.nextAllowedExecution.val := by
  have heffect := step_effect host p env action
  generalize step host p env action = env' at heffect ht
  cases heffect with
  | provisioned inv nextCounter task _ htask =>
      rw [lookup_tasks_provisioned] at ht
      split at ht
      · cases ht
        have hnext := Profile.val_of_fit houtside htask.nextAllowedExecution
        have hpos := t.executionIntervalLedgers.bounds.1
        exact Or.inr (by omega)
      · exact Or.inl ⟨t, ht, rfl⟩
  | executed inv taskId caller task env' _ htask _ hexec =>
      obtain ⟨next, hadd, hlookup⟩ := hexec.lookup_tasks h htask
      rw [hlookup] at ht
      split at ht
      · cases ht
        have hnext := Profile.val_of_fit (houtside task htask) hadd
        have hpos := task.executionIntervalLedgers.bounds.1
        refine Or.inr ?_
        show env.ledgerSequence.val ≤ next.val
        omega
      · exact Or.inl ⟨t, ht, rfl⟩
  | idle => exact Or.inl ⟨t, ht, rfl⟩
  | initialized => exact Or.inl ⟨t, ht, rfl⟩
  | registered => exact Or.inl ⟨t, ht, rfl⟩
  | closed => exact Or.inl ⟨t, ht, rfl⟩
  | transferred => exact Or.inl ⟨t, ht, rfl⟩

/-- What is known of the registration `r` of a keeper in a later environment: every task has been
scheduled since for a later ledger, or was stored at the registration with the same schedule. -/
structure RegisteredAt (host : Host Address TokenState) (p : Profile) (a : Address)
    (r : Env Address TokenState × Action Address TokenState) (env : Env Address TokenState) :
    Prop where
  registration : isRegistration host p a r.1 r.2 = true
  ledger : r.1.ledgerSequence.val ≤ env.ledgerSequence.val
  schedule : ∀ id t, env.tasks.lookup id = some t →
    r.1.ledgerSequence.val ≤ t.nextAllowedExecution.val ∨
      ∃ t', r.1.tasks.lookup id = some t' ∧ t'.nextAllowedExecution = t.nextAllowedExecution

theorem RegisteredAt.step {a : Address} {r : Env Address TokenState × Action Address TokenState}
    (hr : RegisteredAt host p a r env) (h : WellFormed env) {action : Action Address TokenState}
    (houtside : RegistersOutsideGrace p env action) :
    RegisteredAt host p a r (step host p env action) where
  registration := hr.registration
  ledger := hr.ledger.trans (ledger_le_step action)
  schedule id t ht := by
    rcases schedule_of_lookup_step h houtside ht with ⟨t', ht', hsame⟩ | hlater
    · rw [← hsame]
      exact hr.schedule id t' ht'
    · exact Or.inl (hr.ledger.trans hlater)

theorem registeredAt_of_registration {a : Address} {action : Action Address TokenState}
    (hreg : isRegistration host p a env action = true) :
    RegisteredAt host p a (env, action) (step host p env action) := by
  refine ⟨hreg, ledger_le_step action, ?_⟩
  obtain ⟨inv, stakeAmount, rfl, hok⟩ := isRegistration_iff.1 hreg
  obtain ⟨v, hv⟩ := invoke_of_succeeds hok
  obtain ⟨-, -, -, -, henv⟩ := invoke_registerKeeper_eq_ok.1 hv
  intro id t ht
  rw [henv] at ht
  exact Or.inr ⟨t, ht, rfl⟩

/-- Every registered keeper has its registration in the history of the run. -/
theorem exists_registeredAt {tokens : TokenState} {ledgerSequence : U32} {a : Address}
    (actions : List (Action Address TokenState)) :
    (∀ r ∈ trace (step host p) (deployed tokens ledgerSequence) actions,
      RegistersOutsideGrace p r.1 r.2) →
    ∀ k, (run (step host p) (deployed tokens ledgerSequence) actions).keepers.lookup a = some k →
      ∃ r ∈ trace (step host p) (deployed tokens ledgerSequence) actions,
        RegisteredAt host p a r (run (step host p) (deployed tokens ledgerSequence) actions) := by
  -- Induction on the history, its last action split off.
  induction actions using List.reverseRecOn with
  | nil =>
      intro _ k hk
      cases hk
  | append_singleton actions action ih =>
      intro houtside k hk
      rw [trace_append] at houtside ⊢
      rw [run_concat] at hk ⊢
      have hW := wellFormed_run host p tokens ledgerSequence actions
      have hlast := houtside (run (step host p) (deployed tokens ledgerSequence) actions, action)
        (List.mem_append_right _ (List.mem_singleton_self _))
      rcases registered_of_lookup_step hW hk with ⟨k', hk'⟩ | hreg
      · -- Registered before the last action: the record of that registration is carried along.
        obtain ⟨r, hr, hat⟩ := ih (fun r hr => houtside r (List.mem_append_left _ hr)) k' hk'
        exact ⟨r, List.mem_append_left _ hr, hat.step hW hlast⟩
      · exact ⟨_, List.mem_append_right _ (List.mem_singleton_self _),
          registeredAt_of_registration hreg⟩

/-- A task in its grace period had its schedule before the keeper registered, unless the keeper
registered in time. -/
theorem RegisteredAt.in_time {a : Address}
    {r : Env Address TokenState × Action Address TokenState} (hat : RegisteredAt host p a r env)
    (houtside : RegistersOutsideGrace p r.1 r.2) {id : TaskId} {task : ExecutionTask Address}
    (htask : env.tasks.lookup id = some task) (hgrace : InGrace env task) :
    r.1.ledgerSequence.val ≤ task.nextAllowedExecution.val := by
  rcases hat.schedule id task htask with hle | ⟨t', ht', hsame⟩
  · exact hle
  · -- The task had this schedule already when the keeper registered.
    by_contra hlate
    obtain ⟨inv', stakeAmount, haction, hok'⟩ := isRegistration_iff.1 hat.registration
    obtain ⟨v, hv⟩ := invoke_of_succeeds hok'
    obtain ⟨-, hauth, hmin, hnew, -⟩ := invoke_registerKeeper_eq_ok.1 hv
    rw [haction] at houtside
    apply houtside ⟨hauth, hmin, hnew⟩ id t' ht'
    have hledger := hat.ledger
    have hend := hgrace.2
    constructor
    · rw [hsame]
      omega
    · rw [hsame]
      omega

/-- In every run in which nobody registers during the grace period of a stored task, only keepers
registered before a window opened execute in its grace period. -/
theorem registered_before_window (host : Host Address TokenState) (p : Profile)
    (tokens : TokenState) (ledgerSequence : U32) (actions : List (Action Address TokenState))
    (houtside : ∀ r ∈ trace (step host p) (deployed tokens ledgerSequence) actions,
      RegistersOutsideGrace p r.1 r.2) :
    RegisteredInTime host p (deployed tokens ledgerSequence) actions := by
  constructor
  · intro before after inv taskId caller task hactions htask hgrace hok
    rw [hactions, trace_append] at houtside
    have hbefore : ∀ r ∈ trace (step host p) (deployed tokens ledgerSequence) before,
        RegistersOutsideGrace p r.1 r.2 := fun r hr =>
      houtside r (List.mem_append_left _ hr)
    obtain ⟨task', htask', -, hexec⟩ := executes_of_succeeds hok
    rw [htask] at htask'
    cases htask'
    obtain ⟨k, hk⟩ := hexec.caller_registered
    obtain ⟨r, hr, hat⟩ := exists_registeredAt before hbefore k hk
    exact ⟨r, hr, hat.registration, hat.in_time (hbefore r hr) htask hgrace⟩
  · intro before mid after inv inv' keeper stakeAmount taskId task hactions hok htask hlate hgrace
    rw [hactions, trace_append, trace, trace_append] at houtside
    have hW := wellFormed_run host p tokens ledgerSequence before
    generalize run (step host p) (deployed tokens ledgerSequence) before = env at *
    have hat := registeredAt_of_registration (isRegistration_iff.2 ⟨inv, stakeAmount, rfl, hok⟩)
    -- Such a registration falls into the grace period, so there is none in this run.
    have hrun := run_induction_of_trace
      (P := fun env' => WellFormed env' ∧ RegisteredAt host p keeper
        (env, .call inv (.registerKeeper keeper stakeAmount)) env')
      ⟨hW.step _, hat⟩ (fun _ _ ho h => ⟨h.1.step _, h.2.step h.1 ho⟩) mid
      fun r hr => houtside r (List.mem_append_right _
        (List.mem_cons_of_mem _ (List.mem_append_left _ hr)))
    have hin := hrun.2.in_time
      (houtside _ (List.mem_append_right _ (List.mem_cons_self ..))) htask hgrace
    exact absurd hlate (not_lt.2 hin)

/-- A keeper that registers two ledgers after the window opened executes the task in it. -/
theorem registered_within_window :
    ¬ RegisteredInTime sampleHost .debug (deployed (sampleTokens 1000) 0)
      [.call sampleInvocation (.initializeContract 2 1 1),
        .call sampleInvocation (.registerKeeper 3 400),
        .call sampleInvocation (.provisionTask 5 10 30 3), .closeLedger 12,
        .call sampleInvocation (.registerKeeper 4 1),
        .call sampleInvocation (.executeDripSplit (sampleSha256 (taskSeed 0 0)) 4)] := by
  intro h
  have hcall := h.executes
    [.call sampleInvocation (.initializeContract 2 1 1),
      .call sampleInvocation (.registerKeeper 3 400),
      .call sampleInvocation (.provisionTask 5 10 30 3), .closeLedger 12,
      .call sampleInvocation (.registerKeeper 4 1)] [] sampleInvocation
    (sampleSha256 (taskSeed 0 0)) 4 ⟨sampleSha256 (taskSeed 0 0), 5, 10, 10, 30, 3⟩ rfl
    (by decide +kernel) (by decide +kernel) (by decide +kernel)
  revert hcall
  decide +kernel

/-- A secondary execution by a keeper registered before the window. -/
theorem registered_before_window_sample :
    RegisteredInTime sampleHost .debug (deployed (sampleTokens 1000) 0)
      [.call sampleInvocation (.initializeContract 2 1 1),
        .call sampleInvocation (.registerKeeper 3 400),
        .call sampleInvocation (.provisionTask 5 10 30 3),
        .call sampleInvocation (.registerKeeper 4 1), .closeLedger 12,
        .call sampleInvocation (.executeDripSplit (sampleSha256 (taskSeed 0 0)) 4)] :=
  registered_before_window sampleHost .debug (sampleTokens 1000) 0 _ (by decide +kernel)

end ChronosKeeper.Anchor
