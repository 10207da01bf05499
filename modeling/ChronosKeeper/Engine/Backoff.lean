import ChronosKeeper.Engine.Validation

/-!
# Back-off

The retry loop and the ledger poller wait after an error, and double the wait up to a cap:
`backoff = (backoff * 2).min(max)`. After `k` doublings it is the initial one times `2 ^ k`, or the
cap where that is less (`IsBackoff`). An accepted configuration keeps the cap above the initial
wait and far below the range of a `Duration`, so no doubling overflows (`BackoffRange`).
-/

set_option autoImplicit false

namespace ChronosKeeper.Engine

open ChronosKeeper.Foundations

/-- The wait after `k` doublings. -/
def IsBackoff (initial max : Duration) (k : Nat) (backoff : Duration) : Prop :=
  backoff.nanos = min (initial.nanos * 2 ^ k) max.nanos

/-- The cap is at least the initial wait, and its double is a `Duration`. -/
structure BackoffRange (initial max : Duration) : Prop where
  le : initial.nanos ≤ max.nanos
  fits : max.nanos * 2 ≤ maxNanos

theorem Duration.nanos_min (a b : Duration) : (a.min b).nanos = min a.nanos b.nanos := by
  unfold Duration.min
  split
  · rw [Nat.min_eq_left ‹_›]
  · rw [Nat.min_eq_right (by omega)]

variable {initial max backoff : Duration} {k : Nat}

theorem isBackoff_zero (h : BackoffRange initial max) : IsBackoff initial max 0 initial := by
  show initial.nanos = min (initial.nanos * 2 ^ 0) max.nanos
  rw [pow_zero, mul_one, Nat.min_eq_left h.le]

theorem IsBackoff.double (h : BackoffRange initial max) (hk : IsBackoff initial max k backoff) :
    ∃ doubled, backoff.double = some doubled ∧ IsBackoff initial max (k + 1) (doubled.min max) := by
  have hval : backoff.nanos = min (initial.nanos * 2 ^ k) max.nanos := hk
  have hfits : backoff.nanos * 2 ≤ maxNanos := by
    have := h.fits
    omega
  refine ⟨⟨backoff.nanos * 2, hfits⟩, dif_pos hfits, ?_⟩
  show Duration.nanos _ = min (initial.nanos * 2 ^ (k + 1)) max.nanos
  rw [Duration.nanos_min, pow_succ, ← mul_assoc]
  show min (backoff.nanos * 2) max.nanos = _
  omega

/-! ## In an accepted configuration -/

/-- The settings behind an accepted configuration. -/
theorem checked_of_fromEnv {env : Environment} {cfg : EngineConfig} (h : fromEnv env = .ok cfg) :
    ∃ s : Settings, s.Checked ∧ cfg = s.toConfig (configFilePath env) := by
  have hfile : ∃ file, fileCfg env = .ok file := by
    unfold fromEnv at h
    obtain ⟨file, hfile, -⟩ := except_bind_eq_ok_iff.1 h
    exact ⟨file, hfile⟩
  obtain ⟨file, hfile⟩ := hfile
  obtain ⟨s, -, hchecked, hcfg⟩ := (fromEnv_eq_ok_iff hfile).1 h
  exact ⟨s, hchecked, hcfg⟩

theorem backoffRange_of_fromEnv {env : Environment} {cfg : EngineConfig}
    (h : fromEnv env = .ok cfg) : BackoffRange cfg.retryBackoffInitial cfg.retryBackoffMax := by
  obtain ⟨s, hchecked, rfl⟩ := checked_of_fromEnv h
  have hmax := hchecked.retryBackoffMaxSecs
  have hle := hchecked.retryBackoff
  constructor
  · show s.retryBackoffInitialSecs.val.toNat * 1000000000 ≤
      s.retryBackoffMaxSecs.val.toNat * 1000000000
    omega
  · show s.retryBackoffMaxSecs.val.toNat * 1000000000 * 2 ≤ maxNanos
    unfold maxNanos
    omega

end ChronosKeeper.Engine
