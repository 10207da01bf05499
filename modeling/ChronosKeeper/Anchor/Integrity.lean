import ChronosKeeper.Anchor.Arbitration
import ChronosKeeper.Anchor.Records

/-!
# Integrity of the store

The stored records and the configuration support each other in every reachable environment
(`Intact`), and nothing that is stored or configured is lost later on (`Keeps`). An execution call
that has passed the arbitration therefore never looks up a keeper that is missing and never finds
the native token unset. To say so, the code of such a call is written as a program of its
operations (`executionSteps`, `outcome_eq_interp`): wherever one of them is performed the lookups
succeed (`Resolves`), and the call fails neither with `KeeperNotFound` nor with the `expect` on the
token.
-/

set_option autoImplicit false

namespace ChronosKeeper.Anchor

open ChronosKeeper.Foundations

variable {Address TokenState : Type} [DecidableEq Address]

/-! ## Statements -/

/-- The shape of the stored records and what a stored task presupposes. -/
structure Intact (env : Env Address TokenState) : Prop where
  task : ∀ id t, env.tasks.lookup id = some t →
    t.taskId = id ∧ 0 < t.executionIntervalLedgers.val ∧ 0 < t.microRewardPerRun.val ∧
      isRegistered env t.designatedKeeper = true
  keeper : ∀ a k, env.keepers.lookup a = some k → k.address = a
  configured : ∀ id t, env.tasks.lookup id = some t →
    env.admin.isSome = true ∧ env.nativeToken.isSome = true ∧ env.minKeeperStake.isSome = true

/-- What is configured stays as it is, and what is stored stays stored. -/
structure Keeps (env later : Env Address TokenState) : Prop where
  admin : ∀ a, env.admin = some a → later.admin = some a
  nativeToken : ∀ a, env.nativeToken = some a → later.nativeToken = some a
  minKeeperStake : ∀ m, env.minKeeperStake = some m → later.minKeeperStake = some m
  tasks : ∀ id t, env.tasks.lookup id = some t → ∃ t', later.tasks.lookup id = some t'
  keepers : ∀ a k, env.keepers.lookup a = some k → ∃ k', later.keepers.lookup a = some k'

/-- Both keepers of an execution are found and the native token is set. -/
structure Resolves (caller designatedKeeper : Address) (env : Env Address TokenState) : Prop where
  caller : ∃ k, (getKeeper caller).outcome env = .ok (k, env)
  designatedKeeper : ∃ k, (getKeeper designatedKeeper).outcome env = .ok (k, env)
  nativeToken : ∃ token, env.nativeToken = some token

variable {host : Host Address TokenState} {p : Profile} {inv : Invocation Address TokenState}
  {env env' later : Env Address TokenState} {taskId : TaskId} {task : ExecutionTask Address}
  {caller : Address}

/-! ## Records and configuration -/

theorem WellFormed.intact (h : WellFormed env) : Intact env where
  task _ _ ht :=
    ⟨h.taskId ht, h.interval_pos ht, h.microReward_pos ht, isRegistered_iff.2 (h.designated ht)⟩
  keeper _ _ hk := h.keeperAddress hk
  configured id t ht := by
    obtain ⟨token, htoken⟩ := h.configured ht
    -- The token is set, so the initialisation is over, and it sets all three.
    have hadmin : env.admin ≠ none := by
      intro hnone
      rw [h.nativeToken_iff.2 hnone] at htoken
      cases htoken
    have hmin : env.minKeeperStake ≠ none := fun hnone => hadmin (h.minKeeperStake_iff.1 hnone)
    rw [htoken]
    exact ⟨Option.isSome_iff_ne_none.2 hadmin, rfl, Option.isSome_iff_ne_none.2 hmin⟩

namespace Keeps

theorem refl (env : Env Address TokenState) : Keeps env env where
  admin _ h := h
  nativeToken _ h := h
  minKeeperStake _ h := h
  tasks _ t h := ⟨t, h⟩
  keepers _ k h := ⟨k, h⟩

theorem trans (h : Keeps env env') (h' : Keeps env' later) : Keeps env later where
  admin a ha := h'.admin a (h.admin a ha)
  nativeToken a ha := h'.nativeToken a (h.nativeToken a ha)
  minKeeperStake m hm := h'.minKeeperStake m (h.minKeeperStake m hm)
  tasks id t ht := by
    obtain ⟨t', ht'⟩ := h.tasks id t ht
    exact h'.tasks id t' ht'
  keepers a k hk := by
    obtain ⟨k', hk'⟩ := h.keepers a k hk
    exact h'.keepers a k' hk'

end Keeps

/-- A stored task stays stored, whatever is written. -/
theorem tasks_stay_stored (h : WellFormed env) {id : TaskId} {t : ExecutionTask Address}
    (ht : env.tasks.lookup id = some t) (action : Action Address TokenState) :
    ∃ t', (step host p env action).tasks.lookup id = some t' := by
  have heffect := step_effect host p env action
  generalize step host p env action = env' at heffect
  cases heffect with
  | provisioned inv nextCounter task => exact FiniteMap.exists_lookup_insert ht _ _
  | executed inv taskId caller task env' _ htask _ hexec =>
      obtain ⟨next, -, hlookup⟩ := hexec.lookup_tasks h htask
      rw [hlookup]
      split
      · exact ⟨_, rfl⟩
      · exact ⟨t, ht⟩
  | idle => exact ⟨t, ht⟩
  | initialized => exact ⟨t, ht⟩
  | registered => exact ⟨t, ht⟩
  | closed => exact ⟨t, ht⟩
  | transferred => exact ⟨t, ht⟩

theorem keeps_step (h : WellFormed env) (action : Action Address TokenState) :
    Keeps env (step host p env action) := by
  -- Whatever is configured, the initialisation is over.
  have hset : ∀ {a : Address}, env.admin = some a → env.admin ≠ none := fun ha => by
    rw [ha]
    exact Option.some_ne_none _
  refine ⟨?_, ?_, ?_, fun _ _ ht => tasks_stay_stored h ht action,
    fun _ _ hk => keepers_persist hk action⟩
  · intro a ha
    rw [(instance_persists (hset ha) action).1, ha]
  · intro a ha
    have hadmin : env.admin ≠ none := by
      intro hnone
      rw [h.nativeToken_iff.2 hnone] at ha
      cases ha
    rw [(instance_persists hadmin action).2.1, ha]
  · intro m hm
    have hadmin : env.admin ≠ none := by
      intro hnone
      rw [h.minKeeperStake_iff.2 hnone] at hm
      cases hm
    rw [(instance_persists hadmin action).2.2, hm]

/-- Nothing stored or configured is lost in a run. -/
theorem keeps_run (h : WellFormed env) (actions : List (Action Address TokenState)) :
    Keeps env (run (step host p) env actions) := by
  have hstep : ∀ s (action : Action Address TokenState), WellFormed s ∧ Keeps env s →
      WellFormed (step host p s action) ∧ Keeps env (step host p s action) :=
    fun s action hs => ⟨hs.1.step action, hs.2.trans (keeps_step hs.1 action)⟩
  have hrun := run_induction ⟨h, Keeps.refl env⟩ hstep actions
  exact hrun.2

/-! ## The operations of a call -/

theorem getKeeper_of_isRegistered {a : Address} (h : isRegistered env a = true) :
    ∃ k, (getKeeper a).outcome env = .ok (k, env) := by
  obtain ⟨k, hk⟩ := isRegistered_iff.1 h
  exact ⟨k, outcome_getKeeper_of_some hk⟩

namespace Resolves

variable {D : Address}

/-- Writing a keeper record loses no other one. -/
theorem insertKeeper (h : Resolves caller D env) (a : Address) (k : Keeper Address)
    (hkeepers : env'.keepers = env.keepers.insert a k) (htoken : env'.nativeToken = env.nativeToken) :
    Resolves caller D env' := by
  have hfound : ∀ {x}, (∃ kx, (getKeeper x).outcome env = .ok (kx, env)) →
      ∃ kx, (getKeeper x).outcome env' = .ok (kx, env') := by
    rintro x ⟨kx, hkx⟩
    obtain ⟨kx', hkx'⟩ := FiniteMap.exists_lookup_insert (outcome_getKeeper_eq_ok.1 hkx).1 a k
    rw [← hkeepers] at hkx'
    exact ⟨kx', outcome_getKeeper_of_some hkx'⟩
  exact ⟨hfound h.caller, hfound h.designatedKeeper, htoken ▸ h.nativeToken⟩

theorem congr (h : Resolves caller D env) (hkeepers : env'.keepers = env.keepers)
    (htoken : env'.nativeToken = env.nativeToken) : Resolves caller D env' := by
  have hfound : ∀ {x}, (∃ kx, (getKeeper x).outcome env = .ok (kx, env)) →
      ∃ kx, (getKeeper x).outcome env' = .ok (kx, env') := by
    rintro x ⟨kx, hkx⟩
    have hlookup := (outcome_getKeeper_eq_ok.1 hkx).1
    rw [← hkeepers] at hlookup
    exact ⟨kx, outcome_getKeeper_of_some hlookup⟩
  exact ⟨hfound h.caller, hfound h.designatedKeeper, htoken ▸ h.nativeToken⟩

end Resolves

/-- A lookup that succeeds is no error. -/
theorem ensuresAt_getKeeper {I : Env Address TokenState → Prop} {E : Failure → Prop} {a : Address}
    (hI : I env) (h : ∃ k, (getKeeper a).outcome env = .ok (k, env)) :
    Tx.EnsuresAt I E (getKeeper a : AnchorM Address TokenState (Keeper Address)) env := by
  obtain ⟨k, hk⟩ := h
  exact Tx.ensuresAt_of_ok hk hI

/-- The failures that a call past the arbitration cannot end in. -/
def NothingMissing (f : Failure) : Prop :=
  f ≠ .error .keeperNotFound ∧ ∀ message, f ≠ .expect message

theorem nothingMissing_trap : NothingMissing .trap :=
  ⟨by decide, fun _ => Failure.noConfusion⟩

theorem nothingMissing_error {e : ContractError} (h : e ≠ .keeperNotFound) :
    NothingMissing (.error e) :=
  ⟨fun heq => h (Failure.error.inj heq), fun _ => Failure.noConfusion⟩

theorem ensures_applySlash {D : Address} :
    Tx.Ensures (Resolves caller D) NothingMissing
      (applySlash p D : AnchorM Address TokenState (I128 × I128)) := by
  unfold applySlash
  intro s hs
  apply (ensuresAt_getKeeper hs hs.designatedKeeper).bind
  intro k
  split
  · apply (Tx.ensures_modify fun _ hs => hs.congr rfl rfl).bind
    intro _ s _
    exact Tx.ensuresAt_of_error rfl (nothingMissing_error (by decide))
  · apply (Tx.ensures_require _ nothingMissing_trap).bind
    intro a
    apply Tx.ensures_get_bind
    intro s hs
    apply (Tx.ensures_require _ nothingMissing_trap s hs).bind
    intro t
    apply (Tx.ensures_modify fun _ hs => hs.congr rfl rfl).bind
    intro _
    apply (Tx.ensures_modify fun _ hs => hs.insertKeeper _ _ rfl rfl).bind
    intro _
    apply (Tx.ensures_modify fun _ hs => hs.congr rfl rfl).bind
    intro _
    exact Tx.ensures_pure _

/-- The payment reads the token, which is set. -/
theorem ensures_payFromContract {D : Address} (amount : I128) :
    Tx.Ensures (Resolves caller D) NothingMissing
      (payFromContract host caller amount : AnchorM Address TokenState Unit) := by
  unfold payFromContract
  apply Tx.ensures_get_bind
  intro s hs
  obtain ⟨token, htoken⟩ := hs.nativeToken
  apply (Tx.ensuresAt_require_of_some htoken _ hs).bind
  intro token
  apply (Tx.ensures_reject _ (nothingMissing_error (by decide))).bind
  intro _
  apply (Tx.ensures_require _ nothingMissing_trap).bind
  intro tokens
  exact Tx.ensures_modify fun _ hs => hs.congr rfl rfl

/-- Every operation keeps both keepers and the token in place, and misses none of them. -/
theorem Operation.ensures_code (op : Operation Address) :
    Tx.Ensures (Resolves caller task.designatedKeeper) NothingMissing
      (op.code host p inv task caller) := by
  cases op with
  | sequence => exact Tx.ensures_get_bind fun s hs => Tx.ensures_pure _ s hs
  | elapsed currentLedger => exact Tx.ensures_require _ nothingMissing_trap
  | slash => exact ensures_applySlash
  | drip =>
      show Tx.Ensures _ _ (invokeDripList inv task.targetDripList)
      unfold invokeDripList
      apply Tx.ensures_get_bind
      intro s hs
      apply (Tx.ensures_require _ nothingMissing_trap s hs).bind
      intro tokens
      exact Tx.ensures_modify fun _ hs => hs.congr rfl rfl
  | pay amount => exact ensures_payFromContract amount
  | next currentLedger => exact Tx.ensures_require _ nothingMissing_trap
  | schedule nextAllowedExecution => exact Tx.ensures_modify fun _ hs => hs.congr rfl rfl
  | lookup => exact fun s hs => ensuresAt_getKeeper hs hs.caller
  | count totalExecutions => exact Tx.ensures_require _ nothingMissing_trap
  | credit keeper => exact Tx.ensures_modify fun _ hs => hs.insertKeeper _ _ rfl rfl
  | publish e => exact Tx.ensures_modify fun _ hs => hs.congr rfl rfl

/-! ## Registration of the caller -/

/-- A caller whom the arbitration lets pass is registered: the designated keeper is, since the task
is stored. -/
theorem isRegistered_of_passesArbitration (h : WellFormed env)
    (htask : env.tasks.lookup taskId = some task) (hpass : PassesArbitration env task caller) :
    isRegistered env caller = true := by
  obtain ⟨hle, hchecks⟩ := hpass.cases
  obtain ⟨elapsed, -, hval⟩ := sub_of_le .release hle
  rcases hchecks elapsed hval with ⟨-, hcaller⟩ | ⟨-, -, -, hreg⟩ | ⟨-, -, hreg⟩
  · rw [hcaller]
    exact isRegistered_iff.2 (h.designated htask)
  · exact hreg
  · exact hreg

/-! ## Runs -/

/-- In every reachable environment the records are intact and nothing is lost later on. A call that
passes the arbitration is the interpretation of its operations: wherever it performs one of them,
both keepers are found and the native token is set, and it fails neither with `KeeperNotFound` nor
with the `expect` on the token. -/
theorem store_integrity (host : Host Address TokenState) (p : Profile) (tokens : TokenState)
    (ledgerSequence : U32) (before after : List (Action Address TokenState)) :
    let env := run (step host p) (deployed tokens ledgerSequence) before
    Intact env ∧ Keeps env (run (step host p) env after) ∧
      ∀ inv taskId task caller, env.tasks.lookup taskId = some task →
        inv.authorized caller = true → PassesArbitration env task caller →
          (executeDripSplit host p inv taskId caller).outcome env =
            ((executionSteps taskId task caller).interp
              (Operation.code host p inv task caller)).outcome env ∧
          (∀ op s, (executionSteps taskId task caller).Performs
            (Operation.code host p inv task caller) env op s →
              Resolves caller task.designatedKeeper s) ∧
          (executeDripSplit host p inv taskId caller).result env ≠
            .error (.error .keeperNotFound) ∧
          ∀ message, (executeDripSplit host p inv taskId caller).result env ≠
            .error (.expect message) := by
  intro env
  have hW : WellFormed env := wellFormed_run host p tokens ledgerSequence before
  refine ⟨hW.intact, keeps_run hW after, ?_⟩
  intro inv taskId task caller htask hauth hpass
  have hstart : Resolves caller task.designatedKeeper env :=
    ⟨getKeeper_of_isRegistered (isRegistered_of_passesArbitration hW htask hpass),
      getKeeper_of_isRegistered (isRegistered_iff.2 (hW.designated htask)), hW.configured htask⟩
  have hinterp : (executeDripSplit host p inv taskId caller).outcome env =
      ((executionSteps taskId task caller).interp
        (Operation.code host p inv task caller)).outcome env := outcome_eq_interp htask hauth hpass
  have hnothing : ∀ f, (executeDripSplit host p inv taskId caller).result env = .error f →
      NothingMissing f := by
    intro f hresult
    cases hout : (executeDripSplit host p inv taskId caller).outcome env with
    | ok r =>
        rw [Tx.result_of_ok hout] at hresult
        cases hresult
    | error e =>
        rw [Tx.result_of_error hout] at hresult
        cases hresult
        -- The call has failed in one of its operations, and none misses anything.
        rw [hinterp] at hout
        obtain ⟨op, s, hperforms, herror⟩ := Program.exists_performs_of_error hout
        have hs := hperforms.invariant Operation.ensures_code hstart
        exact (op.ensures_code s hs).of_error herror
  refine ⟨hinterp, fun op s hperforms => hperforms.invariant Operation.ensures_code hstart, ?_, ?_⟩
  · exact fun hresult => (hnothing _ hresult).1 rfl
  · exact fun message hresult => (hnothing _ hresult).2 message rfl

/-- A secondary keeper that the arbitration lets pass one ledger after the window opened. -/
theorem store_integrity_sample :
    let env := run (step sampleHost .debug) (deployed (sampleTokens 1000) 0)
      [.call sampleInvocation (.registerKeeper 3 20000000),
        .call sampleInvocation (.initializeContract 2 1 1),
        .call sampleInvocation (.registerKeeper 4 500),
        .call sampleInvocation (.provisionTask 5 10 30 3), .closeLedger 11]
    ∃ task, env.tasks.lookup (sampleSha256 (taskSeed 0 0)) = some task ∧
      PassesArbitration env task 4 ∧ Resolves 4 task.designatedKeeper env := by
  intro env
  have hstored : (env.tasks.lookup (sampleSha256 (taskSeed 0 0))).isSome = true := by
    decide +kernel
  obtain ⟨task, htask⟩ := Option.isSome_iff_exists.1 hstored
  have hpasses : ∀ t ∈ env.tasks.lookup (sampleSha256 (taskSeed 0 0)),
      PassesArbitration env t 4 := by
    decide +kernel
  have hpass := hpasses task htask
  obtain ⟨-, -, hcalls⟩ := store_integrity sampleHost .debug (sampleTokens 1000) 0
    [.call sampleInvocation (.registerKeeper 3 20000000),
      .call sampleInvocation (.initializeContract 2 1 1),
      .call sampleInvocation (.registerKeeper 4 500),
      .call sampleInvocation (.provisionTask 5 10 30 3), .closeLedger 11] []
  obtain ⟨-, hresolves, -, -⟩ := hcalls sampleInvocation _ task 4 htask rfl hpass
  exact ⟨task, htask, hpass, hresolves .sequence env .here⟩

end ChronosKeeper.Anchor
