import ChronosKeeper.Engine.Types

/-!
# Configuration

`EngineConfig::from_env` (`config.rs`): every setting is taken from its environment variable, from
the configuration file or from a default, and the numbers are checked. A variable that is not
Unicode counts as absent, and so does one that does not parse where a number is expected.
-/

set_option autoImplicit false

namespace ChronosKeeper.Engine

open ChronosKeeper.Foundations

/-! ## Where the settings come from -/

/-- `std::env::VarError`. -/
inductive VarError where
  | notPresent
  | notUnicode
  deriving DecidableEq

/-- Deserialisation target of the configuration file. -/
structure FileConfig where
  keeperKeypair : Option String
  rpcEndpointUrl : Option String
  anchorContractAddress : Option String
  pollIntervalSecs : Option U64
  taskQueryTimeoutSecs : Option U64
  confirmationTimeoutSecs : Option U64
  retryBackoffInitialSecs : Option U64
  retryBackoffMaxSecs : Option U64
  maxRetries : Option U32
  healthPort : Option U16

/-- `FileConfig::default()`. -/
def FileConfig.empty : FileConfig :=
  ⟨none, none, none, none, none, none, none, none, none, none⟩

/-- What the configuration is read from: `std::env::var`, the file system, with the text of an
error, and `toml::from_str`, likewise. -/
structure Environment where
  var : String → Except VarError String
  pathExists : String → Bool
  readToString : String → Except String String
  tomlFromStr : String → Except String FileConfig

/-- The error for a field. -/
def configInvalid (field reason : String) : EngineError :=
  .nonTransient (.configInvalid field reason)

def configFilePath (env : Environment) : Option String :=
  match env.var "CONFIG_FILE" with
  | .ok path => some path
  | .error _ => if env.pathExists "engine.toml" then some "engine.toml" else none

def fileCfg (env : Environment) : Except EngineError FileConfig :=
  match configFilePath env with
  | some path => do
      let raw ← (env.readToString path).mapError (configInvalid "config_file")
      (env.tomlFromStr raw).mapError (configInvalid "config_file")
  | none => .ok FileConfig.empty

/-! ## Parsing -/

def decimalDigit (c : Char) : Option Nat :=
  if '0' ≤ c ∧ c ≤ '9' then some (c.toNat - 48) else none

/-- The number written by the digits after those of `acc`. -/
def parseDigits (acc : Nat) : List Char → Option Nat
  | [] => some acc
  | c :: rest => (decimalDigit c).bind fun d => parseDigits (10 * acc + d) rest

/-- `str::parse` at an unsigned type: at least one decimal digit, which a plus sign may precede,
and a value in the range. -/
def parse (t : IntTy) (s : String) : Option (MachineInt t) :=
  let digits := match s.toList with | '+' :: rest => rest | chars => chars
  if digits = [] then none else (parseDigits 0 digits).bind fun n => MachineInt.checked t n

/-- The code points with the property `White_Space`. -/
def isWhitespace (c : Char) : Bool :=
  let n := c.toNat
  (9 ≤ n && n ≤ 13) || n == 32 || n == 0x85 || n == 0xa0 || n == 0x1680 ||
    (0x2000 ≤ n && n ≤ 0x200a) || n == 0x2028 || n == 0x2029 || n == 0x202f || n == 0x205f ||
    n == 0x3000

/-- `s.trim().is_empty()`. -/
def isBlank (s : String) : Bool := s.toList.all isWhitespace

/-! ## Resolving -/

/-- `std::env::var(key).ok()`. -/
def varOk (env : Environment) (envKey : String) : Option String := (env.var envKey).toOption

def resolveStr (env : Environment) (envKey : String) (fileVal : Option String) : Option String :=
  (varOk env envKey).or fileVal

/-- What the three closures for numbers have in common. -/
def resolveNum (t : IntTy) (env : Environment) (envKey : String)
    (fileVal : Option (MachineInt t)) : Option (MachineInt t) :=
  ((varOk env envKey).bind (parse t)).or fileVal

def resolveU64 : Environment → String → Option U64 → Option U64 := resolveNum .u64
def resolveU32 : Environment → String → Option U32 → Option U32 := resolveNum .u32
def resolveU16 : Environment → String → Option U16 → Option U16 := resolveNum .u16

/-- A required string, which must not be blank. -/
def requireStr (env : Environment) (envKey : String) (fileVal : Option String) :
    Except EngineError String :=
  match resolveStr env envKey fileVal with
  | none => .error (configInvalid envKey "required env var is missing or empty")
  | some value =>
      if isBlank value then .error (configInvalid envKey "value must not be empty")
      else .ok value

/-! ## Settings -/

def DEFAULT_POLL_INTERVAL_SECS : U64 := 2
def DEFAULT_TASK_QUERY_TIMEOUT_SECS : U64 := 10
def DEFAULT_CONFIRMATION_TIMEOUT_SECS : U64 := 60
def DEFAULT_RETRY_BACKOFF_INITIAL_SECS : U64 := 1
def DEFAULT_RETRY_BACKOFF_MAX_SECS : U64 := 60
def DEFAULT_MAX_RETRIES : U32 := 5
def DEFAULT_HEALTH_PORT : U16 := 8080

/-- The values of the ten settings, durations in seconds. -/
structure Settings where
  keeperKeypair : String
  rpcEndpointUrl : String
  anchorContractAddress : String
  pollIntervalSecs : U64
  taskQueryTimeoutSecs : U64
  confirmationTimeoutSecs : U64
  retryBackoffInitialSecs : U64
  retryBackoffMaxSecs : U64
  maxRetries : U32
  healthPort : U16

/-- The required and then the optional fields. -/
def readSettings (env : Environment) (file : FileConfig) : Except EngineError Settings := do
  let keeperKeypair ← requireStr env "KEEPER_KEYPAIR" file.keeperKeypair
  let rpcEndpointUrl ← requireStr env "RPC_ENDPOINT_URL" file.rpcEndpointUrl
  let anchorContractAddress ←
    requireStr env "ANCHOR_CONTRACT_ADDRESS" file.anchorContractAddress
  return {
    keeperKeypair := keeperKeypair
    rpcEndpointUrl := rpcEndpointUrl
    anchorContractAddress := anchorContractAddress
    pollIntervalSecs := (resolveU64 env "POLL_INTERVAL_SECS" file.pollIntervalSecs).getD
      DEFAULT_POLL_INTERVAL_SECS
    taskQueryTimeoutSecs := (resolveU64 env "TASK_QUERY_TIMEOUT_SECS"
      file.taskQueryTimeoutSecs).getD DEFAULT_TASK_QUERY_TIMEOUT_SECS
    confirmationTimeoutSecs := (resolveU64 env "CONFIRMATION_TIMEOUT_SECS"
      file.confirmationTimeoutSecs).getD DEFAULT_CONFIRMATION_TIMEOUT_SECS
    retryBackoffInitialSecs := (resolveU64 env "RETRY_BACKOFF_INITIAL_SECS"
      file.retryBackoffInitialSecs).getD DEFAULT_RETRY_BACKOFF_INITIAL_SECS
    retryBackoffMaxSecs := (resolveU64 env "RETRY_BACKOFF_MAX_SECS"
      file.retryBackoffMaxSecs).getD DEFAULT_RETRY_BACKOFF_MAX_SECS
    maxRetries := (resolveU32 env "MAX_RETRIES" file.maxRetries).getD DEFAULT_MAX_RETRIES
    healthPort := (resolveU16 env "HEALTH_PORT" file.healthPort).getD DEFAULT_HEALTH_PORT }

/-- One check, with the field and the reason of its error. -/
def ensure (condition : Prop) [Decidable condition] (field reason : String) :
    Except EngineError Unit :=
  if condition then .ok () else .error (configInvalid field reason)

def validateRanges (s : Settings) : Except EngineError Unit := do
  ensure (1 ≤ s.pollIntervalSecs.val ∧ s.pollIntervalSecs.val ≤ 5) "POLL_INTERVAL_SECS"
    ("must be between 1 and 5 inclusive, got " ++ toString s.pollIntervalSecs.val)
  ensure (s.taskQueryTimeoutSecs.val ≤ 10) "TASK_QUERY_TIMEOUT_SECS"
    ("must be ≤ 10 seconds, got " ++ toString s.taskQueryTimeoutSecs.val)
  ensure (s.confirmationTimeoutSecs.val ≤ 60) "CONFIRMATION_TIMEOUT_SECS"
    ("must be ≤ 60 seconds, got " ++ toString s.confirmationTimeoutSecs.val)
  ensure (1 ≤ s.retryBackoffInitialSecs.val) "RETRY_BACKOFF_INITIAL_SECS" "must be ≥ 1 second"
  ensure (s.retryBackoffMaxSecs.val ≤ 60) "RETRY_BACKOFF_MAX_SECS"
    ("must be ≤ 60 seconds, got " ++ toString s.retryBackoffMaxSecs.val)
  ensure (s.retryBackoffInitialSecs.val ≤ s.retryBackoffMaxSecs.val) "RETRY_BACKOFF_MAX_SECS"
    ("must be ≥ RETRY_BACKOFF_INITIAL_SECS (" ++ toString s.retryBackoffInitialSecs.val ++ ")")

/-! ## Configuration -/

/-- `Duration::from_secs`. -/
def Duration.fromSecs (secs : U64) : Duration where
  nanos := secs.val.toNat * 1000000000
  le_max := by
    have h : secs.val ≤ 18446744073709551615 := secs.inRange.2
    unfold maxNanos
    omega

structure EngineConfig where
  keeperKeypair : String
  rpcEndpointUrl : String
  anchorContractAddress : String
  pollInterval : Duration
  taskQueryTimeout : Duration
  confirmationTimeout : Duration
  retryBackoffInitial : Duration
  retryBackoffMax : Duration
  maxRetries : U32
  healthPort : U16
  configFilePath : Option String

def Settings.toConfig (s : Settings) (path : Option String) : EngineConfig where
  keeperKeypair := s.keeperKeypair
  rpcEndpointUrl := s.rpcEndpointUrl
  anchorContractAddress := s.anchorContractAddress
  pollInterval := .fromSecs s.pollIntervalSecs
  taskQueryTimeout := .fromSecs s.taskQueryTimeoutSecs
  confirmationTimeout := .fromSecs s.confirmationTimeoutSecs
  retryBackoffInitial := .fromSecs s.retryBackoffInitialSecs
  retryBackoffMax := .fromSecs s.retryBackoffMaxSecs
  maxRetries := s.maxRetries
  healthPort := s.healthPort
  configFilePath := path

def fromEnv (env : Environment) : Except EngineError EngineConfig := do
  let file ← fileCfg env
  let settings ← readSettings env file
  validateRanges settings
  return settings.toConfig (configFilePath env)

end ChronosKeeper.Engine
