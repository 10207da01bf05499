import ChronosKeeper.Anchor.Execution
import ChronosKeeper.Foundations.Run

/-!
# The contract and its runs

`lib.rs`: initialisation and the entry points. `invoke` is a call as the host performs it, with
all writes of a failed call reverted. `step` is one event in the life of a deployed contract: a
call by anyone, the closing of ledgers, or a token transfer between other parties.

`Effect` lists what a step can do to the environment, with everything a successful call has
checked; `step_effect` says that every step is in the list. Later modules do not look into the
entry points again.
-/

set_option autoImplicit false

namespace ChronosKeeper.Anchor

open ChronosKeeper.Foundations

variable {Address TokenState : Type}

/-- `initialize`: one-time setup of the admin, the native token and the minimum stake. -/
def initializeContract (inv : Invocation Address TokenState) (admin nativeToken : Address)
    (minKeeperStake : I128) : AnchorM Address TokenState Unit := do
  let env ← get
  -- The stored admin marks the contract as initialised.
  Tx.reject (env.admin.isSome = true) (.error .alreadyInitialized)
  requireAuth inv admin
  modify fun env =>
    { env with
      admin := some admin
      nativeToken := some nativeToken
      minKeeperStake := some minKeeperStake }

/-- The entry points with their arguments. -/
inductive Call (Address : Type) where
  | initializeContract (admin nativeToken : Address) (minKeeperStake : I128)
  | registerKeeper (keeper : Address) (stakeAmount : I128)
  | getKeeper (keeper : Address)
  | provisionTask (targetDripList : Address) (executionIntervalLedgers : U32)
      (microRewardPerRun : I128) (designatedKeeper : Address)
  | getTask (taskId : TaskId)
  | executeDripSplit (taskId : TaskId) (caller : Address)

/-- The values the entry points return. -/
inductive Value (Address : Type) where
  | unit
  | keeper (k : Keeper Address)
  | taskId (id : TaskId)
  | task (t : ExecutionTask Address)
  deriving DecidableEq

/-- The entry points that only read. -/
def Call.readOnly : Call Address → Bool
  | .getKeeper _ => true
  | .getTask _ => true
  | _ => false

/-- Something that happens to the deployed contract. -/
inductive Action (Address TokenState : Type) where
  /-- An invocation of an entry point. -/
  | call (inv : Invocation Address TokenState) (c : Call Address)
  /-- Ledgers close up to the given sequence. -/
  | closeLedger (sequence : U32)
  /-- A transfer of a token that the contract has no part in. -/
  | transfer (token src dst : Address) (amount : I128)

/-- The state of a contract that was just deployed. -/
def deployed (tokens : TokenState) (ledgerSequence : U32) : Env Address TokenState where
  ledgerSequence := ledgerSequence
  admin := none
  nativeToken := none
  minKeeperStake := none
  taskCounter := none
  keepers := ∅
  tasks := ∅
  treasuryBalance := none
  events := []
  tokens := tokens

variable [DecidableEq Address]

/-- The code of an entry point. -/
def Call.code (host : Host Address TokenState) (p : Profile) (inv : Invocation Address TokenState) :
    Call Address → AnchorM Address TokenState (Value Address)
  | .initializeContract admin nativeToken minKeeperStake =>
      (fun _ => .unit) <$> Anchor.initializeContract inv admin nativeToken minKeeperStake
  | .registerKeeper keeper stakeAmount =>
      (fun _ => .unit) <$> Anchor.registerKeeper inv keeper stakeAmount
  | .getKeeper keeper => .keeper <$> Anchor.getKeeper keeper
  | .provisionTask targetDripList executionIntervalLedgers microRewardPerRun designatedKeeper =>
      .taskId <$> Anchor.provisionTask host p inv targetDripList executionIntervalLedgers
        microRewardPerRun designatedKeeper
  | .getTask taskId => .task <$> Anchor.getTask taskId
  | .executeDripSplit taskId caller =>
      (fun _ => .unit) <$> Anchor.executeDripSplit host p inv taskId caller

/-- A call as the host performs it: its result and the environment after it. -/
def invoke (host : Host Address TokenState) (p : Profile) (inv : Invocation Address TokenState)
    (c : Call Address) (env : Env Address TokenState) :
    Except Failure (Value Address) × Env Address TokenState :=
  (c.code host p inv).commit env

/-- One action. The ledger sequence never decreases, and only the contract itself moves its own
tokens. -/
def step (host : Host Address TokenState) (p : Profile) (env : Env Address TokenState) :
    Action Address TokenState → Env Address TokenState
  | .call inv c => (invoke host p inv c env).2
  | .closeLedger sequence =>
      if env.ledgerSequence ≤ sequence then { env with ledgerSequence := sequence } else env
  | .transfer token src dst amount =>
      if src = host.currentContractAddress then env
      else
        match host.token.transfer env.tokens token src dst amount with
        | some tokens => { env with tokens }
        | none => env

/-- The call succeeds in the environment. -/
def Succeeds (host : Host Address TokenState) (p : Profile) (inv : Invocation Address TokenState)
    (c : Call Address) (env : Env Address TokenState) : Prop :=
  ∃ v, (invoke host p inv c env).1 = .ok v

instance (host : Host Address TokenState) (p : Profile) (inv : Invocation Address TokenState)
    (c : Call Address) (env : Env Address TokenState) : Decidable (Succeeds host p inv c env) :=
  match h : (invoke host p inv c env).1 with
  | .ok v => isTrue ⟨v, h⟩
  | .error _ => isFalse fun ⟨_, hv⟩ => nomatch h.symm.trans hv

/-- The environments that runs from a deployment reach. -/
def Reachable (host : Host Address TokenState) (p : Profile) (env : Env Address TokenState) :
    Prop :=
  ∃ tokens ledgerSequence actions,
    env = run (step host p) (deployed tokens ledgerSequence) actions

/-! ## Successful calls -/

section Calls

variable {host : Host Address TokenState} {p : Profile} {inv : Invocation Address TokenState}
  {env env' : Env Address TokenState}

theorem invoke_eq_ok {c : Call Address} {v : Value Address} :
    invoke host p inv c env = (.ok v, env') ↔ (c.code host p inv).outcome env = .ok (v, env') :=
  Tx.commit_eq_ok

/-- The environment after a successful initialisation. -/
def initialized (env : Env Address TokenState) (admin nativeToken : Address)
    (minKeeperStake : I128) : Env Address TokenState :=
  { env with
    admin := some admin
    nativeToken := some nativeToken
    minKeeperStake := some minKeeperStake }

omit [DecidableEq Address] in
theorem outcome_initializeContract_eq_ok {admin nativeToken : Address} {minKeeperStake : I128}
    {u : Unit} :
    (initializeContract inv admin nativeToken minKeeperStake).outcome env = .ok (u, env') ↔
      env.admin = none ∧ inv.authorized admin = true ∧
        env' = initialized env admin nativeToken minKeeperStake := by
  unfold initializeContract
  simp only [Tx.outcome_get_bind, Tx.outcome_reject_bind_eq_ok, outcome_requireAuth_bind_eq_ok,
    Tx.outcome_modify, Bool.not_eq_true, Option.isSome_eq_false_iff, Option.isNone_iff_eq_none]
  constructor
  · rintro ⟨hadmin, hauth, hset⟩
    cases hset
    exact ⟨hadmin, hauth, rfl⟩
  · rintro ⟨hadmin, hauth, rfl⟩
    exact ⟨hadmin, hauth, rfl⟩

theorem invoke_initializeContract_eq_ok {admin nativeToken : Address} {minKeeperStake : I128}
    {v : Value Address} :
    invoke host p inv (.initializeContract admin nativeToken minKeeperStake) env = (.ok v, env') ↔
      v = .unit ∧ env.admin = none ∧ inv.authorized admin = true ∧
        env' = initialized env admin nativeToken minKeeperStake := by
  rw [invoke_eq_ok, Call.code, Tx.outcome_map_eq_ok]
  simp only [outcome_initializeContract_eq_ok]
  constructor
  · rintro ⟨_, h, rfl⟩
    exact ⟨rfl, h⟩
  · rintro ⟨rfl, h⟩
    exact ⟨(), h, rfl⟩

theorem invoke_registerKeeper_eq_ok {keeper : Address} {stakeAmount : I128} {v : Value Address} :
    invoke host p inv (.registerKeeper keeper stakeAmount) env = (.ok v, env') ↔
      v = .unit ∧ inv.authorized keeper = true ∧ (effectiveMinStake env).val ≤ stakeAmount.val ∧
        env.keepers.lookup keeper = none ∧ env' = registered env keeper stakeAmount := by
  rw [invoke_eq_ok, Call.code, Tx.outcome_map_eq_ok]
  simp only [outcome_registerKeeper_eq_ok]
  constructor
  · rintro ⟨_, h, rfl⟩
    exact ⟨rfl, h⟩
  · rintro ⟨rfl, h⟩
    exact ⟨(), h, rfl⟩

theorem invoke_provisionTask_eq_ok {targetDripList designatedKeeper : Address}
    {executionIntervalLedgers : U32} {microRewardPerRun : I128} {v : Value Address} :
    invoke host p inv (.provisionTask targetDripList executionIntervalLedgers microRewardPerRun
        designatedKeeper) env = (.ok v, env') ↔
      ∃ taskId nextCounter nextAllowedExecution, v = .taskId taskId ∧
        IsProvisioning host p inv env nextCounter
          { taskId, targetDripList, executionIntervalLedgers, nextAllowedExecution,
            microRewardPerRun, designatedKeeper } ∧
        env' = provisioned env nextCounter
          { taskId, targetDripList, executionIntervalLedgers, nextAllowedExecution,
            microRewardPerRun, designatedKeeper } := by
  rw [invoke_eq_ok, Call.code, Tx.outcome_map_eq_ok]
  simp only [outcome_provisionTask_eq_ok]
  constructor
  · rintro ⟨taskId, ⟨nextCounter, next, h, rfl⟩, rfl⟩
    exact ⟨taskId, nextCounter, next, rfl, h, rfl⟩
  · rintro ⟨taskId, nextCounter, next, rfl, h, rfl⟩
    exact ⟨taskId, ⟨nextCounter, next, h, rfl⟩, rfl⟩

theorem invoke_executeDripSplit_eq_ok {taskId : TaskId} {caller : Address} {v : Value Address} :
    invoke host p inv (.executeDripSplit taskId caller) env = (.ok v, env') ↔
      v = .unit ∧ ∃ task, env.tasks.lookup taskId = some task ∧ inv.authorized caller = true ∧
        Executes host p inv env taskId task caller env' := by
  rw [invoke_eq_ok, Call.code, Tx.outcome_map_eq_ok]
  simp only [outcome_executeDripSplit_eq_ok]
  constructor
  · rintro ⟨_, h, rfl⟩
    exact ⟨rfl, h⟩
  · rintro ⟨rfl, h⟩
    exact ⟨(), h, rfl⟩

/-- A call that fails leaves the environment unchanged, and so does a reading one. -/
theorem invoke_of_not_succeeds {c : Call Address}
    (h : ¬ Succeeds host p inv c env ∨ c.readOnly = true) : (invoke host p inv c env).2 = env := by
  rcases Tx.commit_cases (c.code host p inv) env with ⟨v, env', hout, hcommit⟩ | ⟨e, hout, hcommit⟩
  · -- A successful call here is one of the two getters.
    rcases h with h | h
    · exact absurd ⟨v, by rw [invoke, hcommit]⟩ h
    · rw [invoke, hcommit]
      cases c with
      | getKeeper keeper =>
          obtain ⟨k, hk, -⟩ := Tx.outcome_map_eq_ok.1 hout
          exact (outcome_getKeeper_eq_ok.1 hk).2
      | getTask taskId =>
          obtain ⟨t, ht, -⟩ := Tx.outcome_map_eq_ok.1 hout
          exact (outcome_getTask_eq_ok.1 ht).2
      | initializeContract _ _ _ => cases h
      | registerKeeper _ _ => cases h
      | provisionTask _ _ _ _ => cases h
      | executeDripSplit _ _ => cases h
  · rw [invoke, hcommit]

/-- The result of a successful call together with the environment after the step. -/
theorem invoke_of_succeeds {c : Call Address} (h : Succeeds host p inv c env) :
    ∃ v, invoke host p inv c env = (.ok v, step host p env (.call inv c)) := by
  obtain ⟨v, hv⟩ := h
  exact ⟨v, Prod.ext hv rfl⟩

/-- A successful execution and the environment after it. -/
theorem executes_of_succeeds {taskId : TaskId} {caller : Address}
    (h : Succeeds host p inv (.executeDripSplit taskId caller) env) :
    ∃ task, env.tasks.lookup taskId = some task ∧ inv.authorized caller = true ∧
      Executes host p inv env taskId task caller
        (step host p env (.call inv (.executeDripSplit taskId caller))) := by
  obtain ⟨v, hv⟩ := invoke_of_succeeds h
  exact (invoke_executeDripSplit_eq_ok.1 hv).2

end Calls

/-! ## The effect of a step -/

/-- What an action can do to an environment. Every constructor for a call that writes holds of a
successful call. -/
inductive Effect (host : Host Address TokenState) (p : Profile) (env : Env Address TokenState) :
    Action Address TokenState → Env Address TokenState → Prop where
  /-- A failed or reading call, a ledger in the past or a failed transfer. -/
  | idle (action : Action Address TokenState)
      (hidle : ∀ inv c, action = .call inv c →
        ¬ Succeeds host p inv c env ∨ c.readOnly = true) :
      Effect host p env action env
  | initialized (inv : Invocation Address TokenState) (admin nativeToken : Address)
      (minKeeperStake : I128)
      (hok : Succeeds host p inv (.initializeContract admin nativeToken minKeeperStake) env)
      (hadmin : env.admin = none) (hauth : inv.authorized admin = true) :
      Effect host p env (.call inv (.initializeContract admin nativeToken minKeeperStake))
        (initialized env admin nativeToken minKeeperStake)
  | registered (inv : Invocation Address TokenState) (keeper : Address) (stakeAmount : I128)
      (hok : Succeeds host p inv (.registerKeeper keeper stakeAmount) env)
      (hauth : inv.authorized keeper = true)
      (hmin : (effectiveMinStake env).val ≤ stakeAmount.val)
      (hnew : env.keepers.lookup keeper = none) :
      Effect host p env (.call inv (.registerKeeper keeper stakeAmount))
        (registered env keeper stakeAmount)
  | provisioned (inv : Invocation Address TokenState) (nextCounter : U32)
      (task : ExecutionTask Address)
      (hok : Succeeds host p inv (.provisionTask task.targetDripList task.executionIntervalLedgers
        task.microRewardPerRun task.designatedKeeper) env)
      (htask : IsProvisioning host p inv env nextCounter task) :
      Effect host p env (.call inv (.provisionTask task.targetDripList
          task.executionIntervalLedgers task.microRewardPerRun task.designatedKeeper))
        (provisioned env nextCounter task)
  | executed (inv : Invocation Address TokenState) (taskId : TaskId) (caller : Address)
      (task : ExecutionTask Address) (env' : Env Address TokenState)
      (hok : Succeeds host p inv (.executeDripSplit taskId caller) env)
      (htask : env.tasks.lookup taskId = some task) (hauth : inv.authorized caller = true)
      (hexec : Executes host p inv env taskId task caller env') :
      Effect host p env (.call inv (.executeDripSplit taskId caller)) env'
  | closed (sequence : U32) (hle : env.ledgerSequence.val ≤ sequence.val) :
      Effect host p env (.closeLedger sequence) { env with ledgerSequence := sequence }
  | transferred (token src dst : Address) (amount : I128) (tokens : TokenState)
      (hsrc : src ≠ host.currentContractAddress)
      (htransfer : host.token.transfer env.tokens token src dst amount = some tokens) :
      Effect host p env (.transfer token src dst amount) { env with tokens }

section StepEffect

variable {host : Host Address TokenState} {p : Profile} {env : Env Address TokenState}

theorem effect_of_idle_call {inv : Invocation Address TokenState} {c : Call Address}
    (h : ¬ Succeeds host p inv c env ∨ c.readOnly = true) :
    Effect host p env (.call inv c) (step host p env (.call inv c)) := by
  have hstep : step host p env (.call inv c) = env := invoke_of_not_succeeds h
  rw [hstep]
  refine .idle _ fun inv' c' heq => ?_
  obtain ⟨rfl, rfl⟩ := Action.call.inj heq
  exact h

theorem effect_of_succeeds {inv : Invocation Address TokenState} {c : Call Address}
    (hok : Succeeds host p inv c env) :
    Effect host p env (.call inv c) (step host p env (.call inv c)) := by
  obtain ⟨v, hv⟩ := invoke_of_succeeds hok
  cases c with
  | initializeContract admin nativeToken minKeeperStake =>
      obtain ⟨-, hadmin, hauth, henv⟩ := invoke_initializeContract_eq_ok.1 hv
      rw [henv]
      exact .initialized inv admin nativeToken minKeeperStake hok hadmin hauth
  | registerKeeper keeper stakeAmount =>
      obtain ⟨-, hauth, hmin, hnew, henv⟩ := invoke_registerKeeper_eq_ok.1 hv
      rw [henv]
      exact .registered inv keeper stakeAmount hok hauth hmin hnew
  | provisionTask targetDripList interval reward designatedKeeper =>
      obtain ⟨taskId, nextCounter, next, -, htask, henv⟩ := invoke_provisionTask_eq_ok.1 hv
      rw [henv]
      exact Effect.provisioned inv nextCounter
        { taskId, targetDripList, executionIntervalLedgers := interval,
          nextAllowedExecution := next, microRewardPerRun := reward, designatedKeeper } hok htask
  | executeDripSplit taskId caller =>
      obtain ⟨-, task, htask, hauth, hexec⟩ := invoke_executeDripSplit_eq_ok.1 hv
      exact .executed inv taskId caller task _ hok htask hauth hexec
  | getKeeper keeper => exact effect_of_idle_call (Or.inr rfl)
  | getTask taskId => exact effect_of_idle_call (Or.inr rfl)

/-- Every step does one of the listed things. -/
theorem step_effect (host : Host Address TokenState) (p : Profile) (env : Env Address TokenState)
    (action : Action Address TokenState) :
    Effect host p env action (step host p env action) := by
  cases action with
  | call inv c =>
      by_cases hok : Succeeds host p inv c env
      · exact effect_of_succeeds hok
      · exact effect_of_idle_call (Or.inl hok)
  | closeLedger sequence =>
      simp only [step]
      split
      · rename_i hle
        exact .closed sequence hle
      · exact .idle _ fun _ _ h => nomatch h
  | transfer token src dst amount =>
      simp only [step]
      split
      · exact .idle _ fun _ _ h => nomatch h
      · rename_i hsrc
        split
        · rename_i tokens htokens
          exact .transferred token src dst amount tokens hsrc htokens
        · exact .idle _ fun _ _ h => nomatch h

end StepEffect

/-! ## A concrete host -/

/-- A seed followed by 24 zero bytes. -/
def paddedSeed (seed : BytesN 8) : TaskId :=
  #v[seed[0], seed[1], seed[2], seed[3], seed[4], seed[5], seed[6], seed[7],
    0, 0, 0, 0, 0, 0, 0, 0, 0, 0, 0, 0, 0, 0, 0, 0, 0, 0, 0, 0, 0, 0, 0, 0]

/-- The SHA-256 digest on the seeds of the first two tasks of ledger zero, and padding on the
other seeds. -/
def sampleSha256 (seed : BytesN 8) : TaskId :=
  if seed = taskSeed 0 0 then
    #v[0xaf, 0x55, 0x70, 0xf5, 0xa1, 0x81, 0x0b, 0x7a, 0xf7, 0x8c, 0xaf, 0x4b, 0xc7, 0x0a, 0x66,
      0x0f, 0x0d, 0xf5, 0x1e, 0x42, 0xba, 0xf9, 0x1d, 0x4d, 0xe5, 0xb2, 0x32, 0x8d, 0xe0, 0xe8,
      0x3d, 0xfc]
  else if seed = taskSeed 1 0 then
    #v[0xcb, 0xbc, 0x48, 0x75, 0x0d, 0xeb, 0xb8, 0x53, 0x50, 0x93, 0xb3, 0xde, 0xaf, 0x88, 0xac,
      0x7f, 0x4c, 0xff, 0x87, 0x42, 0x55, 0x76, 0xa5, 0x8d, 0xe2, 0xba, 0xc7, 0x54, 0xac, 0xdb,
      0x46, 0x16]
  else paddedSeed seed

theorem paddedSeed_injective : Function.Injective paddedSeed := by
  intro a b h
  have hlist := congrArg Vector.toList h
  simp only [paddedSeed, Vector.toList_mk, List.cons.injEq, and_true] at hlist
  obtain ⟨h0, h1, h2, h3, h4, h5, h6, h7⟩ := hlist
  apply Vector.ext
  intro i hi
  match i, hi with
  | 0, _ => exact h0
  | 1, _ => exact h1
  | 2, _ => exact h2
  | 3, _ => exact h3
  | 4, _ => exact h4
  | 5, _ => exact h5
  | 6, _ => exact h6
  | 7, _ => exact h7

theorem sampleSha256_injective : Function.Injective sampleSha256 := by
  -- The last byte of a value tells the three cases apart.
  have hlast : ∀ {x y : TaskId}, x[31] ≠ y[31] → x ≠ y := fun hne heq => hne (heq ▸ rfl)
  have hpad : ∀ seed, (paddedSeed seed)[31] = 0 := fun _ => rfl
  intro a b h
  unfold sampleSha256 at h
  split at h
  · rename_i ha
    split at h
    · rename_i hb
      exact ha.trans hb.symm
    · split at h
      · exact absurd h (hlast (by decide))
      · exact absurd h (hlast (by rw [hpad]; decide))
  · split at h
    · rename_i ha
      split at h
      · exact absurd h (hlast (by decide))
      · split at h
        · rename_i hb
          exact ha.trans hb.symm
        · exact absurd h (hlast (by rw [hpad]; decide))
    · split at h
      · exact absurd h (hlast (by rw [hpad]; decide))
      · split at h
        · exact absurd h (hlast (by rw [hpad]; decide))
        · exact paddedSeed_injective h

/-- A host with a `TokenLedger`, addresses being numbers and the contract having address 0. -/
def sampleHost : Host Nat (TokenLedger Nat) where
  token := TokenLedger.contract Nat
  sha256 := sampleSha256
  currentContractAddress := 0

/-- An invocation that everyone has authorised, calling drip lists that move no tokens. -/
def sampleInvocation : Invocation Nat (TokenLedger Nat) where
  authorized _ := true
  distributeWaveSplits _ st := some st

/-- Balances in which the contract holds an amount of the token 1. -/
def sampleTokens (amount : I128) (h : 0 ≤ amount.val := by decide) : TokenLedger Nat :=
  TokenLedger.holding 1 0 amount h

end ChronosKeeper.Anchor
