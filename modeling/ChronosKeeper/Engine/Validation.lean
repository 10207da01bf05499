import ChronosKeeper.Engine.Config

/-!
# Which settings are accepted

`IsEffective` says which settings an environment and a configuration file stand for: the variable
where it is set, the value of the file where it is not, and otherwise the default; a variable that
is set and cannot be read stands for nothing. `Settings.Documented` are the documented ranges, and
`ValidatesAsDocumented` says that the engine accepts exactly these settings and refuses all others.

The code computes `IsResolved` in place of the first and `Settings.Checked` in place of the second
(`fromEnv_eq_ok_iff`): it passes over a variable that cannot be read, and leaves out three lower
bounds. What it refuses it refuses rightly, and what it accepts is as documented exactly where
neither makes a difference (`validates_as_documented_iff`).
-/

set_option autoImplicit false

namespace ChronosKeeper.Engine

open ChronosKeeper.Foundations

/-! ## Effective settings -/

/-- The string that a variable, a value of the file or neither stands for. -/
def effectiveStr (env : Environment) (envKey : String) (fileVal : Option String) :
    Option String :=
  match env.var envKey with
  | .ok value => some value
  | .error .notPresent => fileVal
  | .error .notUnicode => none

/-- The number that a variable, a value of the file or the default stands for. -/
def effectiveNum (t : IntTy) (env : Environment) (envKey : String)
    (fileVal : Option (MachineInt t)) (default : MachineInt t) : Option (MachineInt t) :=
  match env.var envKey with
  | .ok value => parse t value
  | .error .notPresent => some (fileVal.getD default)
  | .error .notUnicode => none

/-- The settings that the environment and the file stand for. -/
structure IsEffective (env : Environment) (file : FileConfig) (s : Settings) : Prop where
  keeperKeypair : effectiveStr env "KEEPER_KEYPAIR" file.keeperKeypair = some s.keeperKeypair
  rpcEndpointUrl : effectiveStr env "RPC_ENDPOINT_URL" file.rpcEndpointUrl =
    some s.rpcEndpointUrl
  anchorContractAddress : effectiveStr env "ANCHOR_CONTRACT_ADDRESS"
    file.anchorContractAddress = some s.anchorContractAddress
  pollIntervalSecs : effectiveNum .u64 env "POLL_INTERVAL_SECS" file.pollIntervalSecs
    DEFAULT_POLL_INTERVAL_SECS = some s.pollIntervalSecs
  taskQueryTimeoutSecs : effectiveNum .u64 env "TASK_QUERY_TIMEOUT_SECS"
    file.taskQueryTimeoutSecs DEFAULT_TASK_QUERY_TIMEOUT_SECS = some s.taskQueryTimeoutSecs
  confirmationTimeoutSecs : effectiveNum .u64 env "CONFIRMATION_TIMEOUT_SECS"
    file.confirmationTimeoutSecs DEFAULT_CONFIRMATION_TIMEOUT_SECS =
      some s.confirmationTimeoutSecs
  retryBackoffInitialSecs : effectiveNum .u64 env "RETRY_BACKOFF_INITIAL_SECS"
    file.retryBackoffInitialSecs DEFAULT_RETRY_BACKOFF_INITIAL_SECS =
      some s.retryBackoffInitialSecs
  retryBackoffMaxSecs : effectiveNum .u64 env "RETRY_BACKOFF_MAX_SECS"
    file.retryBackoffMaxSecs DEFAULT_RETRY_BACKOFF_MAX_SECS = some s.retryBackoffMaxSecs
  maxRetries : effectiveNum .u32 env "MAX_RETRIES" file.maxRetries DEFAULT_MAX_RETRIES =
    some s.maxRetries
  healthPort : effectiveNum .u16 env "HEALTH_PORT" file.healthPort DEFAULT_HEALTH_PORT =
    some s.healthPort

/-- The settings as the code resolves them. -/
structure IsResolved (env : Environment) (file : FileConfig) (s : Settings) : Prop where
  keeperKeypair : resolveStr env "KEEPER_KEYPAIR" file.keeperKeypair = some s.keeperKeypair
  rpcEndpointUrl : resolveStr env "RPC_ENDPOINT_URL" file.rpcEndpointUrl =
    some s.rpcEndpointUrl
  anchorContractAddress : resolveStr env "ANCHOR_CONTRACT_ADDRESS" file.anchorContractAddress =
    some s.anchorContractAddress
  pollIntervalSecs : (resolveU64 env "POLL_INTERVAL_SECS" file.pollIntervalSecs).getD
    DEFAULT_POLL_INTERVAL_SECS = s.pollIntervalSecs
  taskQueryTimeoutSecs : (resolveU64 env "TASK_QUERY_TIMEOUT_SECS"
    file.taskQueryTimeoutSecs).getD DEFAULT_TASK_QUERY_TIMEOUT_SECS = s.taskQueryTimeoutSecs
  confirmationTimeoutSecs : (resolveU64 env "CONFIRMATION_TIMEOUT_SECS"
    file.confirmationTimeoutSecs).getD DEFAULT_CONFIRMATION_TIMEOUT_SECS =
      s.confirmationTimeoutSecs
  retryBackoffInitialSecs : (resolveU64 env "RETRY_BACKOFF_INITIAL_SECS"
    file.retryBackoffInitialSecs).getD DEFAULT_RETRY_BACKOFF_INITIAL_SECS =
      s.retryBackoffInitialSecs
  retryBackoffMaxSecs : (resolveU64 env "RETRY_BACKOFF_MAX_SECS"
    file.retryBackoffMaxSecs).getD DEFAULT_RETRY_BACKOFF_MAX_SECS = s.retryBackoffMaxSecs
  maxRetries : (resolveU32 env "MAX_RETRIES" file.maxRetries).getD DEFAULT_MAX_RETRIES =
    s.maxRetries
  healthPort : (resolveU16 env "HEALTH_PORT" file.healthPort).getD DEFAULT_HEALTH_PORT =
    s.healthPort

namespace Settings

/-- What the code checks of the settings. -/
structure Checked (s : Settings) : Prop where
  keeperKeypair : isBlank s.keeperKeypair = false
  rpcEndpointUrl : isBlank s.rpcEndpointUrl = false
  anchorContractAddress : isBlank s.anchorContractAddress = false
  pollIntervalSecs : 1 ≤ s.pollIntervalSecs.val ∧ s.pollIntervalSecs.val ≤ 5
  taskQueryTimeoutSecs : s.taskQueryTimeoutSecs.val ≤ 10
  confirmationTimeoutSecs : s.confirmationTimeoutSecs.val ≤ 60
  retryBackoffInitialSecs : 1 ≤ s.retryBackoffInitialSecs.val
  retryBackoffMaxSecs : s.retryBackoffMaxSecs.val ≤ 60
  retryBackoff : s.retryBackoffInitialSecs.val ≤ s.retryBackoffMaxSecs.val

/-- The lower bounds that the documentation adds to these. -/
structure PositiveLimits (s : Settings) : Prop where
  taskQueryTimeoutSecs : 1 ≤ s.taskQueryTimeoutSecs.val
  confirmationTimeoutSecs : 1 ≤ s.confirmationTimeoutSecs.val
  healthPort : 1 ≤ s.healthPort.val

/-- The strings are not blank and the numbers are in the documented ranges. -/
structure Documented (s : Settings) : Prop where
  keeperKeypair : isBlank s.keeperKeypair = false
  rpcEndpointUrl : isBlank s.rpcEndpointUrl = false
  anchorContractAddress : isBlank s.anchorContractAddress = false
  pollIntervalSecs : 1 ≤ s.pollIntervalSecs.val ∧ s.pollIntervalSecs.val ≤ 5
  taskQueryTimeoutSecs : 1 ≤ s.taskQueryTimeoutSecs.val ∧ s.taskQueryTimeoutSecs.val ≤ 10
  confirmationTimeoutSecs :
    1 ≤ s.confirmationTimeoutSecs.val ∧ s.confirmationTimeoutSecs.val ≤ 60
  retryBackoffInitialSecs : 1 ≤ s.retryBackoffInitialSecs.val
  retryBackoffMaxSecs : s.retryBackoffMaxSecs.val ≤ 60 ∧
    s.retryBackoffInitialSecs.val ≤ s.retryBackoffMaxSecs.val
  healthPort : 1 ≤ s.healthPort.val ∧ s.healthPort.val ≤ 65535

theorem documented_iff {s : Settings} : s.Documented ↔ s.Checked ∧ s.PositiveLimits := by
  constructor
  · intro h
    exact ⟨{ keeperKeypair := h.keeperKeypair
             rpcEndpointUrl := h.rpcEndpointUrl
             anchorContractAddress := h.anchorContractAddress
             pollIntervalSecs := h.pollIntervalSecs
             taskQueryTimeoutSecs := h.taskQueryTimeoutSecs.2
             confirmationTimeoutSecs := h.confirmationTimeoutSecs.2
             retryBackoffInitialSecs := h.retryBackoffInitialSecs
             retryBackoffMaxSecs := h.retryBackoffMaxSecs.1
             retryBackoff := h.retryBackoffMaxSecs.2 },
      ⟨h.taskQueryTimeoutSecs.1, h.confirmationTimeoutSecs.1, h.healthPort.1⟩⟩
  · rintro ⟨h, hpos⟩
    exact { keeperKeypair := h.keeperKeypair
            rpcEndpointUrl := h.rpcEndpointUrl
            anchorContractAddress := h.anchorContractAddress
            pollIntervalSecs := h.pollIntervalSecs
            taskQueryTimeoutSecs := ⟨hpos.taskQueryTimeoutSecs, h.taskQueryTimeoutSecs⟩
            confirmationTimeoutSecs :=
              ⟨hpos.confirmationTimeoutSecs, h.confirmationTimeoutSecs⟩
            retryBackoffInitialSecs := h.retryBackoffInitialSecs
            retryBackoffMaxSecs := ⟨h.retryBackoffMaxSecs, h.retryBackoff⟩
            -- A port is an `u16`.
            healthPort := ⟨hpos.healthPort, s.healthPort.inRange.2⟩ }

end Settings

/-! ## The purpose of the validation -/

/-- With this environment and file the engine starts exactly with documented settings, and then
with those; otherwise it reports the configuration as invalid. -/
structure ValidatesAsDocumented (env : Environment) (file : FileConfig) : Prop where
  ok_iff : (∃ cfg, fromEnv env = .ok cfg) ↔ ∃ s, IsEffective env file s ∧ s.Documented
  fields : ∀ cfg, fromEnv env = .ok cfg →
    ∃ s, IsEffective env file s ∧ cfg = s.toConfig (configFilePath env)
  invalid : ∀ e, fromEnv env = .error e → ∃ field reason, e = configInvalid field reason

variable {env : Environment} {file : FileConfig} {s : Settings}

/-! ## What the code accepts -/

section Except

variable {ε α β : Type}

theorem except_bind_eq_ok_iff {x : Except ε α} {f : α → Except ε β} {b : β} :
    (x >>= f) = .ok b ↔ ∃ a, x = .ok a ∧ f a = .ok b := by
  cases x with
  | error e =>
      refine iff_of_false (fun h => by cases h) ?_
      rintro ⟨a, ha, -⟩
      cases ha
  | ok a =>
      constructor
      · intro h
        exact ⟨a, rfl, h⟩
      · rintro ⟨a', ha, h⟩
        cases ha
        exact h

theorem except_bind_eq_error_iff {x : Except ε α} {f : α → Except ε β} {e : ε} :
    (x >>= f) = .error e ↔ x = .error e ∨ ∃ a, x = .ok a ∧ f a = .error e := by
  cases x with
  | error e' =>
      constructor
      · intro h
        cases h
        exact Or.inl rfl
      · rintro (h | ⟨a, ha, -⟩)
        · cases h
          rfl
        · cases ha
  | ok a =>
      constructor
      · intro h
        exact Or.inr ⟨a, rfl, h⟩
      · rintro (h | ⟨a', ha, h⟩)
        · cases h
        · cases ha
          exact h

end Except

theorem requireStr_eq_ok_iff {envKey : String} {fileVal : Option String} {value : String} :
    requireStr env envKey fileVal = .ok value ↔
      resolveStr env envKey fileVal = some value ∧ isBlank value = false := by
  unfold requireStr
  cases resolveStr env envKey fileVal with
  | none => simp
  | some v =>
      dsimp only
      split
      · -- a blank value is refused
        refine iff_of_false (fun h => by cases h) ?_
        rintro ⟨hv, hblank⟩
        cases hv
        exact absurd ‹isBlank value = true› (ne_true_of_eq_false hblank)
      · constructor
        · intro h
          cases h
          exact ⟨rfl, eq_false_of_ne_true ‹_›⟩
        · rintro ⟨hv, -⟩
          cases hv
          rfl

theorem ensure_eq_ok_iff {condition : Prop} [Decidable condition] {field reason : String}
    {u : Unit} : ensure condition field reason = .ok u ↔ condition := by
  unfold ensure
  split
  · exact iff_of_true rfl ‹condition›
  · exact iff_of_false (fun h => by cases h) ‹¬ condition›

theorem readSettings_eq_ok_iff :
    readSettings env file = .ok s ↔ IsResolved env file s ∧ isBlank s.keeperKeypair = false ∧
      isBlank s.rpcEndpointUrl = false ∧ isBlank s.anchorContractAddress = false := by
  unfold readSettings
  simp only [except_bind_eq_ok_iff, requireStr_eq_ok_iff]
  constructor
  · rintro ⟨keypair, ⟨hkeypair, hk⟩, url, ⟨hurl, hu⟩, address, ⟨haddress, ha⟩, hs⟩
    cases hs
    exact ⟨⟨hkeypair, hurl, haddress, rfl, rfl, rfl, rfl, rfl, rfl, rfl⟩, hk, hu, ha⟩
  · rintro ⟨h, hk, hu, ha⟩
    refine ⟨_, ⟨h.keeperKeypair, hk⟩, _, ⟨h.rpcEndpointUrl, hu⟩, _,
      ⟨h.anchorContractAddress, ha⟩, ?_⟩
    rw [h.pollIntervalSecs, h.taskQueryTimeoutSecs, h.confirmationTimeoutSecs,
      h.retryBackoffInitialSecs, h.retryBackoffMaxSecs, h.maxRetries, h.healthPort]
    rfl

theorem validateRanges_eq_ok_iff {u : Unit} :
    validateRanges s = .ok u ↔
      (1 ≤ s.pollIntervalSecs.val ∧ s.pollIntervalSecs.val ≤ 5) ∧
        s.taskQueryTimeoutSecs.val ≤ 10 ∧ s.confirmationTimeoutSecs.val ≤ 60 ∧
        1 ≤ s.retryBackoffInitialSecs.val ∧ s.retryBackoffMaxSecs.val ≤ 60 ∧
        s.retryBackoffInitialSecs.val ≤ s.retryBackoffMaxSecs.val := by
  unfold validateRanges
  simp only [except_bind_eq_ok_iff, ensure_eq_ok_iff, exists_const]

/-- The code accepts the settings that it resolves, if they pass its checks. -/
theorem fromEnv_eq_ok_iff (hfile : fileCfg env = .ok file) {cfg : EngineConfig} :
    fromEnv env = .ok cfg ↔
      ∃ s, IsResolved env file s ∧ s.Checked ∧ cfg = s.toConfig (configFilePath env) := by
  unfold fromEnv
  simp only [hfile, except_bind_eq_ok_iff, readSettings_eq_ok_iff, validateRanges_eq_ok_iff]
  constructor
  · rintro ⟨_, hf, s, ⟨hres, hk, hu, ha⟩, -, ⟨hpoll, hquery, hconf, hinit, hmax, hle⟩, hcfg⟩
    cases hf
    cases hcfg
    exact ⟨s, hres, ⟨hk, hu, ha, hpoll, hquery, hconf, hinit, hmax, hle⟩, rfl⟩
  · rintro ⟨s, hres, h, rfl⟩
    exact ⟨file, rfl, s, ⟨hres, h.keeperKeypair, h.rpcEndpointUrl, h.anchorContractAddress⟩, (),
      ⟨h.pollIntervalSecs, h.taskQueryTimeoutSecs, h.confirmationTimeoutSecs,
        h.retryBackoffInitialSecs, h.retryBackoffMaxSecs, h.retryBackoff⟩, rfl⟩

theorem IsResolved.unique {s' : Settings} (h : IsResolved env file s)
    (h' : IsResolved env file s') : s = s' := by
  -- every field is read by a function of the environment and the file
  have hkeypair := Option.some.inj (h.keeperKeypair.symm.trans h'.keeperKeypair)
  have hurl := Option.some.inj (h.rpcEndpointUrl.symm.trans h'.rpcEndpointUrl)
  have haddress := Option.some.inj (h.anchorContractAddress.symm.trans h'.anchorContractAddress)
  cases s
  cases s'
  cases hkeypair
  cases hurl
  cases haddress
  cases h.pollIntervalSecs.symm.trans h'.pollIntervalSecs
  cases h.taskQueryTimeoutSecs.symm.trans h'.taskQueryTimeoutSecs
  cases h.confirmationTimeoutSecs.symm.trans h'.confirmationTimeoutSecs
  cases h.retryBackoffInitialSecs.symm.trans h'.retryBackoffInitialSecs
  cases h.retryBackoffMaxSecs.symm.trans h'.retryBackoffMaxSecs
  cases h.maxRetries.symm.trans h'.maxRetries
  cases h.healthPort.symm.trans h'.healthPort
  rfl

/-! ## Every error is an invalid configuration -/

/-- The error is the one for some field. -/
def IsConfigInvalid (e : EngineError) : Prop := ∃ field reason, e = configInvalid field reason

theorem isConfigInvalid_of_mapError {α : Type} {x : Except String α} {field : String}
    {e : EngineError} (h : x.mapError (configInvalid field) = .error e) : IsConfigInvalid e := by
  cases x with
  | error reason =>
      cases h
      exact ⟨field, reason, rfl⟩
  | ok a => cases h

theorem isConfigInvalid_of_fileCfg {e : EngineError} (h : fileCfg env = .error e) :
    IsConfigInvalid e := by
  unfold fileCfg at h
  cases hpath : configFilePath env with
  | none =>
      rw [hpath] at h
      cases h
  | some path =>
      rw [hpath] at h
      -- the file cannot be read, or it cannot be parsed
      rcases except_bind_eq_error_iff.1 h with h | ⟨raw, -, h⟩
      · exact isConfigInvalid_of_mapError h
      · exact isConfigInvalid_of_mapError h

theorem isConfigInvalid_of_requireStr {envKey : String} {fileVal : Option String}
    {e : EngineError} (h : requireStr env envKey fileVal = .error e) : IsConfigInvalid e := by
  unfold requireStr at h
  split at h
  · cases h
    exact ⟨_, _, rfl⟩
  · split at h
    · cases h
      exact ⟨_, _, rfl⟩
    · cases h

theorem isConfigInvalid_of_ensure {condition : Prop} [Decidable condition]
    {field reason : String} {e : EngineError} (h : ensure condition field reason = .error e) :
    IsConfigInvalid e := by
  unfold ensure at h
  split at h
  · cases h
  · cases h
    exact ⟨field, reason, rfl⟩

theorem isConfigInvalid_of_readSettings {e : EngineError}
    (h : readSettings env file = .error e) : IsConfigInvalid e := by
  unfold readSettings at h
  simp only [except_bind_eq_error_iff] at h
  -- only the three required strings can fail
  rcases h with h | ⟨_, -, h | ⟨_, -, h | ⟨_, -, h⟩⟩⟩
  · exact isConfigInvalid_of_requireStr h
  · exact isConfigInvalid_of_requireStr h
  · exact isConfigInvalid_of_requireStr h
  · cases h

theorem isConfigInvalid_of_validateRanges {e : EngineError} (h : validateRanges s = .error e) :
    IsConfigInvalid e := by
  unfold validateRanges at h
  simp only [except_bind_eq_error_iff] at h
  rcases h with h | ⟨_, -, h | ⟨_, -, h | ⟨_, -, h | ⟨_, -, h | ⟨_, -, h⟩⟩⟩⟩⟩ <;>
    exact isConfigInvalid_of_ensure h

theorem isConfigInvalid_of_fromEnv {e : EngineError} (h : fromEnv env = .error e) :
    IsConfigInvalid e := by
  unfold fromEnv at h
  simp only [except_bind_eq_error_iff] at h
  rcases h with h | ⟨_, -, h | ⟨_, -, h | ⟨_, -, h⟩⟩⟩
  · exact isConfigInvalid_of_fileCfg h
  · exact isConfigInvalid_of_readSettings h
  · exact isConfigInvalid_of_validateRanges h
  · cases h

/-! ## When that is as documented -/

/-- A string that a variable can override is resolved to what it stands for. -/
theorem resolveStr_of_effectiveStr {envKey : String} {fileVal : Option String} {value : String}
    (h : effectiveStr env envKey fileVal = some value) :
    resolveStr env envKey fileVal = some value := by
  unfold effectiveStr at h
  unfold resolveStr varOk
  cases hvar : env.var envKey with
  | ok v =>
      rw [hvar] at h
      cases h
      rfl
  | error e =>
      rw [hvar] at h
      cases e with
      | notPresent =>
          rw [show fileVal = some value from h]
          rfl
      -- what is not Unicode stands for nothing
      | notUnicode => cases h

theorem resolveNum_of_effectiveNum {t : IntTy} {envKey : String}
    {fileVal : Option (MachineInt t)} {default value : MachineInt t}
    (h : effectiveNum t env envKey fileVal default = some value) :
    (resolveNum t env envKey fileVal).getD default = value := by
  unfold effectiveNum at h
  unfold resolveNum varOk
  cases hvar : env.var envKey with
  | ok v =>
      rw [hvar] at h
      have hparse : parse t v = some value := h
      show (((parse t v).or fileVal).getD default) = value
      rw [hparse]
      rfl
  | error e =>
      rw [hvar] at h
      cases e with
      | notPresent => exact Option.some.inj h
      | notUnicode => cases h

theorem IsEffective.isResolved (h : IsEffective env file s) : IsResolved env file s where
  keeperKeypair := resolveStr_of_effectiveStr h.keeperKeypair
  rpcEndpointUrl := resolveStr_of_effectiveStr h.rpcEndpointUrl
  anchorContractAddress := resolveStr_of_effectiveStr h.anchorContractAddress
  pollIntervalSecs := resolveNum_of_effectiveNum h.pollIntervalSecs
  taskQueryTimeoutSecs := resolveNum_of_effectiveNum h.taskQueryTimeoutSecs
  confirmationTimeoutSecs := resolveNum_of_effectiveNum h.confirmationTimeoutSecs
  retryBackoffInitialSecs := resolveNum_of_effectiveNum h.retryBackoffInitialSecs
  retryBackoffMaxSecs := resolveNum_of_effectiveNum h.retryBackoffMaxSecs
  maxRetries := resolveNum_of_effectiveNum h.maxRetries
  healthPort := resolveNum_of_effectiveNum h.healthPort

/-- The validation is as documented exactly where every variable that is set can be read and the
two timeouts and the port are positive, or where the code refuses what it resolves. -/
theorem validates_as_documented_iff (env : Environment) (file : FileConfig)
    (hfile : fileCfg env = .ok file) :
    ValidatesAsDocumented env file ↔
      (∃ s, IsEffective env file s ∧ s.PositiveLimits) ∨
        ∀ s, IsResolved env file s → ¬ s.Checked := by
  constructor
  · intro h
    by_cases hrefused : ∀ s, IsResolved env file s → ¬ s.Checked
    · exact Or.inr hrefused
    · -- the code accepts what it resolves, so that has to be the documented settings
      push Not at hrefused
      obtain ⟨s, hres, hchecked⟩ := hrefused
      obtain ⟨s', heff, hdoc⟩ :=
        h.ok_iff.1 ⟨_, (fromEnv_eq_ok_iff hfile).2 ⟨s, hres, hchecked, rfl⟩⟩
      exact Or.inl ⟨s', heff, (Settings.documented_iff.1 hdoc).2⟩
  · intro h
    -- What is effective and accepted is resolved, so it has the positive limits as well.
    have hfields : ∀ cfg, fromEnv env = .ok cfg → ∃ s, IsEffective env file s ∧ s.Documented ∧
        cfg = s.toConfig (configFilePath env) := by
      intro cfg hcfg
      obtain ⟨s, hres, hchecked, rfl⟩ := (fromEnv_eq_ok_iff hfile).1 hcfg
      rcases h with ⟨s', heff, hpos⟩ | hrefused
      · cases hres.unique heff.isResolved
        exact ⟨s, heff, Settings.documented_iff.2 ⟨hchecked, hpos⟩, rfl⟩
      · exact absurd hchecked (hrefused s hres)
    refine { ok_iff := ⟨?_, ?_⟩, fields := ?_, invalid := fun e => isConfigInvalid_of_fromEnv }
    · rintro ⟨cfg, hcfg⟩
      obtain ⟨s, heff, hdoc, -⟩ := hfields cfg hcfg
      exact ⟨s, heff, hdoc⟩
    · rintro ⟨s, heff, hdoc⟩
      exact ⟨_, (fromEnv_eq_ok_iff hfile).2
        ⟨s, heff.isResolved, (Settings.documented_iff.1 hdoc).1, rfl⟩⟩
    · intro cfg hcfg
      obtain ⟨s, heff, -, hs⟩ := hfields cfg hcfg
      exact ⟨s, heff, hs⟩

/-! ## Sample environments -/

/-- An environment without a configuration file, in which the required variables and one other
are set. -/
def sampleEnvironment (envKey value : String) : Environment where
  var key :=
    if key = "KEEPER_KEYPAIR" then .ok "SCZANGBA4XLMSEGEBHR5QKOH6X6EN73OOXNL7WI736DKCKDKB2XCJXE"
    else if key = "RPC_ENDPOINT_URL" then .ok "https://soroban-testnet.stellar.org"
    else if key = "ANCHOR_CONTRACT_ADDRESS" then
      .ok "CAAAAAAAAAAAAAAAAAAAAAAAAAAAAAAAAAAAAAAAAAAAAAAAAAAAABSC4"
    else if key = envKey then .ok value
    else .error .notPresent
  pathExists _ := false
  readToString _ := .error "No such file or directory (os error 2)"
  tomlFromStr _ := .error "expected a table"

/-- A poll interval that does not parse is passed over for the default, and a query timeout of
zero is accepted. -/
theorem ignored_override :
    let unparsable := sampleEnvironment "POLL_INTERVAL_SECS" "abc"
    let zero := sampleEnvironment "TASK_QUERY_TIMEOUT_SECS" "0"
    ((∃ cfg, fromEnv unparsable = .ok cfg ∧ cfg.pollInterval.nanos = 2000000000) ∧
      ¬ ValidatesAsDocumented unparsable FileConfig.empty) ∧
    (∃ cfg, fromEnv zero = .ok cfg ∧ cfg.taskQueryTimeout.nanos = 0) ∧
      ¬ ValidatesAsDocumented zero FileConfig.empty := by
  intro unparsable zero
  have hunparsable : ∃ cfg, fromEnv unparsable = .ok cfg ∧ cfg.pollInterval.nanos = 2000000000 :=
    ⟨_, rfl, by decide⟩
  have hzero : ∃ cfg, fromEnv zero = .ok cfg ∧ cfg.taskQueryTimeout.nanos = 0 :=
    ⟨_, rfl, by decide⟩
  refine ⟨⟨hunparsable, fun h => ?_⟩, hzero, fun h => ?_⟩
  · -- Nothing is effective for the poll interval.
    obtain ⟨cfg, hcfg, -⟩ := hunparsable
    obtain ⟨s, heff, -⟩ := h.ok_iff.1 ⟨cfg, hcfg⟩
    have hpoll := heff.pollIntervalSecs
    rw [show effectiveNum .u64 unparsable "POLL_INTERVAL_SECS" FileConfig.empty.pollIntervalSecs
      DEFAULT_POLL_INTERVAL_SECS = none by decide] at hpoll
    cases hpoll
  · obtain ⟨cfg, hcfg, -⟩ := hzero
    obtain ⟨s, heff, hdoc⟩ := h.ok_iff.1 ⟨cfg, hcfg⟩
    have hquery := heff.taskQueryTimeoutSecs
    rw [show effectiveNum .u64 zero "TASK_QUERY_TIMEOUT_SECS"
      FileConfig.empty.taskQueryTimeoutSecs DEFAULT_TASK_QUERY_TIMEOUT_SECS = some 0 by decide]
      at hquery
    have hpositive := hdoc.taskQueryTimeoutSecs.1
    rw [← Option.some.inj hquery] at hpositive
    exact absurd hpositive (by decide)

/-- The settings with the health port overridden by 9090. -/
def sampleSettings : Settings where
  keeperKeypair := "SCZANGBA4XLMSEGEBHR5QKOH6X6EN73OOXNL7WI736DKCKDKB2XCJXE"
  rpcEndpointUrl := "https://soroban-testnet.stellar.org"
  anchorContractAddress := "CAAAAAAAAAAAAAAAAAAAAAAAAAAAAAAAAAAAAAAAAAAAAAAAAAAAABSC4"
  pollIntervalSecs := 2
  taskQueryTimeoutSecs := 10
  confirmationTimeoutSecs := 60
  retryBackoffInitialSecs := 1
  retryBackoffMaxSecs := 60
  maxRetries := 5
  healthPort := 9090

theorem fromEnv_sampleEnvironment :
    fromEnv (sampleEnvironment "HEALTH_PORT" "9090") = .ok (sampleSettings.toConfig none) := rfl

theorem validates_as_documented_sample :
    ValidatesAsDocumented (sampleEnvironment "HEALTH_PORT" "9090") FileConfig.empty := by
  have heff : IsEffective (sampleEnvironment "HEALTH_PORT" "9090") FileConfig.empty
      sampleSettings := by
    constructor <;> decide
  exact (validates_as_documented_iff _ _ rfl).2
    (Or.inl ⟨_, heff, ⟨by decide, by decide, by decide⟩⟩)

end ChronosKeeper.Engine
