import ChronosKeeper.Anchor.Types

/-!
# Keeper registry

`registry.rs`: registration, lookup and write-back of keeper records. `registerKeeper` does not
call the token contract; a successful registration only writes the record and publishes its event
(`outcome_registerKeeper_eq_ok`).
-/

set_option autoImplicit false

namespace ChronosKeeper.Anchor

open ChronosKeeper.Foundations

variable {Address TokenState : Type} [DecidableEq Address]

/-- The compile-time minimum stake: 1 XLM in stroops. -/
def MIN_KEEPER_STAKE : I128 := 10000000

theorem val_MIN_KEEPER_STAKE : MIN_KEEPER_STAKE.val = 10000000 := by decide

/-- The minimum that registration enforces: the on-chain value, else the constant. -/
def effectiveMinStake (env : Env Address TokenState) : I128 :=
  env.minKeeperStake.getD MIN_KEEPER_STAKE

/-- Whether an address has a keeper record. -/
def isRegistered (env : Env Address TokenState) (keeper : Address) : Bool :=
  (env.keepers.lookup keeper).isSome

/-- Whether an address is registered and not flagged as ineligible. -/
def isEligible (env : Env Address TokenState) (keeper : Address) : Bool :=
  match env.keepers.lookup keeper with
  | some k => !k.ineligible
  | none => false

/-- The record of a keeper that has just registered. -/
def newKeeper (keeper : Address) (stakeAmount : I128) : Keeper Address where
  address := keeper
  stakeAmount := stakeAmount
  lastExecutionLedger := 0
  totalExecutions := 0
  ineligible := false

/-- A registration passes its checks. -/
def Registrable (inv : Invocation Address TokenState) (env : Env Address TokenState)
    (keeper : Address) (stakeAmount : I128) : Prop :=
  inv.authorized keeper = true ∧ (effectiveMinStake env).val ≤ stakeAmount.val ∧
    env.keepers.lookup keeper = none

instance (inv : Invocation Address TokenState) (env : Env Address TokenState) (keeper : Address)
    (stakeAmount : I128) : Decidable (Registrable inv env keeper stakeAmount) :=
  inferInstanceAs (Decidable (_ ∧ _ ∧ _))

/-- Registers a keeper with a stake. -/
def registerKeeper (inv : Invocation Address TokenState) (keeper : Address) (stakeAmount : I128) :
    AnchorM Address TokenState Unit := do
  requireAuth inv keeper
  let env ← get
  Tx.reject (stakeAmount < effectiveMinStake env) (.error .stakeBelowMinimum)
  Tx.reject (isRegistered env keeper = true) (.error .keeperAlreadyRegistered)
  -- The stake is only recorded: no token is moved.
  modify fun env =>
    { env with keepers := env.keepers.insert keeper (newKeeper keeper stakeAmount) }
  emitKeeperRegistered keeper stakeAmount

/-- The record of a registered keeper. -/
def getKeeper (keeper : Address) : AnchorM Address TokenState (Keeper Address) := do
  let env ← get
  Tx.require (env.keepers.lookup keeper) (.error .keeperNotFound)

/-- Writes a record back under the address found in it. -/
def updateKeeper (keeper : Keeper Address) : AnchorM Address TokenState Unit :=
  -- The key is read from the record, not passed by the caller.
  modify fun env => { env with keepers := env.keepers.insert keeper.address keeper }

/-! ## Specifications -/

theorem isRegistered_iff {env : Env Address TokenState} {keeper : Address} :
    isRegistered env keeper = true ↔ ∃ k, env.keepers.lookup keeper = some k :=
  Option.isSome_iff_exists

theorem not_isRegistered_iff {env : Env Address TokenState} {keeper : Address} :
    isRegistered env keeper = false ↔ env.keepers.lookup keeper = none := by
  unfold isRegistered
  rw [Option.isSome_eq_false_iff, Option.isNone_iff_eq_none]

theorem isEligible_iff {env : Env Address TokenState} {keeper : Address} :
    isEligible env keeper = true ↔
      ∃ k, env.keepers.lookup keeper = some k ∧ k.ineligible = false := by
  unfold isEligible
  cases env.keepers.lookup keeper with
  | none => simp
  | some k => simp

theorem outcome_getKeeper (keeper : Address) (env : Env Address TokenState) :
    (getKeeper keeper).outcome env =
      (Tx.require (env.keepers.lookup keeper) (.error .keeperNotFound) :
        AnchorM Address TokenState (Keeper Address)).outcome env :=
  Tx.outcome_get_bind

theorem outcome_getKeeper_of_some {keeper : Address} {env : Env Address TokenState}
    {k : Keeper Address} (h : env.keepers.lookup keeper = some k) :
    (getKeeper keeper).outcome env = .ok (k, env) := by
  rw [outcome_getKeeper, h]
  rfl

theorem outcome_getKeeper_eq_ok {keeper : Address} {env env' : Env Address TokenState}
    {k : Keeper Address} :
    (getKeeper keeper).outcome env = .ok (k, env') ↔
      env.keepers.lookup keeper = some k ∧ env' = env := by
  rw [outcome_getKeeper]
  exact Tx.outcome_require_eq_ok

theorem outcome_getKeeper_bind_eq_ok {β : Type} {keeper : Address} {env : Env Address TokenState}
    {f : Keeper Address → AnchorM Address TokenState β} {r : β × Env Address TokenState} :
    (getKeeper keeper >>= f).outcome env = .ok r ↔
      ∃ k, env.keepers.lookup keeper = some k ∧ (f k).outcome env = .ok r := by
  unfold getKeeper
  rw [bind_assoc, Tx.outcome_get_bind]
  exact Tx.outcome_require_bind_eq_ok

theorem outcome_updateKeeper_bind {β : Type} {k : Keeper Address} {env : Env Address TokenState}
    {f : Unit → AnchorM Address TokenState β} :
    (updateKeeper k >>= f).outcome env =
      (f ()).outcome { env with keepers := env.keepers.insert k.address k } :=
  Tx.outcome_modify_bind

/-- The state after a registration. -/
def registered (env : Env Address TokenState) (keeper : Address) (stakeAmount : I128) :
    Env Address TokenState :=
  { env with
    keepers := env.keepers.insert keeper (newKeeper keeper stakeAmount)
    events := env.events ++ [.kprReg keeper stakeAmount] }

/-- A registration succeeds exactly for an authorised, unregistered address whose stake reaches
the effective minimum, and then writes one record and one event. -/
theorem outcome_registerKeeper_eq_ok {inv : Invocation Address TokenState} {keeper : Address}
    {stakeAmount : I128} {env env' : Env Address TokenState} {u : Unit} :
    (registerKeeper inv keeper stakeAmount).outcome env = .ok (u, env') ↔
      inv.authorized keeper = true ∧ (effectiveMinStake env).val ≤ stakeAmount.val ∧
        env.keepers.lookup keeper = none ∧ env' = registered env keeper stakeAmount := by
  unfold registerKeeper
  simp only [outcome_requireAuth_bind_eq_ok, Tx.outcome_get_bind, Tx.outcome_reject_bind_eq_ok,
    Tx.outcome_modify_bind, emitKeeperRegistered, outcome_publish]
  constructor
  · rintro ⟨hauth, hmin, hreg, hp⟩
    cases hp
    refine ⟨hauth, not_lt.1 hmin, ?_, rfl⟩
    exact not_isRegistered_iff.1 (Bool.not_eq_true _ ▸ hreg)
  · rintro ⟨hauth, hmin, hreg, rfl⟩
    refine ⟨hauth, not_lt.2 hmin, ?_, rfl⟩
    rw [not_isRegistered_iff.2 hreg]
    exact Bool.false_ne_true

end ChronosKeeper.Anchor
