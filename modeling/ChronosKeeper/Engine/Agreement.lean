import ChronosKeeper.Engine.Decision
import ChronosKeeper.Anchor.Arbitration
import ChronosKeeper.Anchor.Contract

/-!
# Engine and contract

The same four regions are computed by the engine, to decide what to dispatch, and by the contract,
to decide whom to accept. `Region.role` says what the engine takes on in a region; with an exact
`next + 50` it is the decision (`decision_of_fits`), and it is a role exactly where the region
does not refuse the registered caller (`Region.role_eq_some_iff`).

`windows_agree_iff` compares the two at one ledger, over all `u32` values, and
`dispatch_lands_iff` compares a dispatch with the contract one ledger later.
-/

set_option autoImplicit false

namespace ChronosKeeper.Engine

open ChronosKeeper.Foundations
open Anchor (Env Host Invocation ExecutionTask Region regionOf isRegistered AcceptsCaller
  PassesArbitration acceptsCaller_iff)

/-! ## Roles of the regions -/

/-- The region of the contract in which a role executes. -/
def ExecutionRole.region : ExecutionRole → Region
  | .designated => .designated
  | .secondary => .grace
  | .postGrace => .postGrace

/-- What a registered keeper takes on in a region. -/
def regionRole : Region → (isDesignated : Bool) → Option ExecutionRole
  | .preWindow, _ => none
  | .designated, isDesignated => if isDesignated then some .designated else none
  | .grace, isDesignated => if isDesignated then none else some .secondary
  | .postGrace, _ => some .postGrace

/-- A registered keeper takes something on where the region does not refuse it, in the role of the
region. -/
theorem regionRole_eq_some_iff {region : Region} {isDesignated : Bool} {role : ExecutionRole} :
    regionRole region isDesignated = some role ↔
      region.refusal isDesignated true = none ∧ role.region = region := by
  cases region <;> cases isDesignated <;> cases role <;>
    simp [regionRole, Region.refusal, ExecutionRole.region]

theorem exists_regionRole_iff {region : Region} {isDesignated : Bool} :
    (∃ role, regionRole region isDesignated = some role) ↔
      region.refusal isDesignated true = none := by
  cases region <;> cases isDesignated <;> simp [regionRole, Region.refusal]

/-! ## The decision by regions -/

variable {p : Profile} {next current : U32} {isDesignated : Bool}

theorem decision_of_fits (hfits : next.val + 50 ≤ 4294967295) :
    decision p next current isDesignated =
      regionRole (regionOf next.val current.val) isDesignated := by
  have hnext := next.bounds
  have hfifty : (50 : U32).val = 50 := rfl
  have hadd : p.add next 50 = some ⟨next.val + 50, IntTy.inRange_u32.2 ⟨by omega, hfits⟩⟩ :=
    Profile.fit_of_inRange p _
  have heq : current = next ↔ current.val = next.val := MachineInt.eq_iff
  unfold decision
  rw [hadd]
  simp only [heq, MachineInt.lt_iff, MachineInt.le_iff]
  rcases lt_trichotomy current.val next.val with hlt | hat | hgt
  · have hregion : regionOf next.val current.val = .preWindow := if_pos hlt
    rw [hregion, if_neg fun h => hlt.ne h.1, if_neg fun h => by omega, if_neg (by omega)]
    rfl
  · rw [Anchor.regionOf_eq_designated hat]
    cases isDesignated with
    | true => exact if_pos ⟨hat, rfl⟩
    | false =>
        rw [if_neg fun h => Bool.noConfusion h.2, if_neg fun h => by omega, if_neg (by omega)]
        rfl
  · rw [if_neg fun h => hgt.ne' h.1]
    by_cases hend : current.val ≤ next.val + 50
    · rw [Anchor.regionOf_eq_grace hgt hend, if_pos ⟨hgt, hend⟩]
      rfl
    · rw [Anchor.regionOf_eq_postGrace (not_le.1 hend), if_neg fun h => hend h.2,
        if_pos (not_le.1 hend)]
      rfl

/-- In the debug profile an overflowing addition aborts; only the designated window is decided
before it. -/
theorem decision_debug_of_overflow (hover : 4294967295 < next.val + 50) :
    decision .debug next current isDesignated =
      if current.val = next.val ∧ isDesignated = true then some .designated else none := by
  have hfifty : (50 : U32).val = 50 := rfl
  have hadd : Profile.debug.add next 50 = none := by
    refine dif_neg fun hrange => ?_
    have hmax := (IntTy.inRange_u32.1 hrange).2
    omega
  unfold decision
  rw [hadd]
  simp only [MachineInt.eq_iff]

/-- In the release profile an overflowing addition wraps around to the start of the ledgers. -/
theorem decision_release_of_overflow (hover : 4294967295 < next.val + 50) :
    decision .release next current isDesignated =
      if current.val = next.val ∧ isDesignated = true then some .designated
      else if next.val + 50 - 4294967296 < current.val then some .postGrace
      else none := by
  have hnext := next.bounds
  have hcurrent := current.bounds
  obtain ⟨graceEnd, hadd⟩ : ∃ graceEnd, Profile.release.add next 50 = some graceEnd := ⟨_, rfl⟩
  have hgraceEnd : graceEnd.val = next.val + 50 - 4294967296 := by
    rcases val_of_graceEnd hadd with h | ⟨-, h⟩
    · have := U32.bounds graceEnd
      omega
    · exact h
  unfold decision
  rw [hadd]
  simp only [MachineInt.eq_iff, MachineInt.lt_iff, MachineInt.le_iff, hgraceEnd]
  split
  · rfl
  · rw [if_neg fun h => by omega]

/-! ## Agreement at one ledger -/

/-- The comparison with `next + 50` does not go wrong: it does not overflow; or, where it panics and
so nothing is dispatched, nothing is to be dispatched at this ledger, except at `next` by the
designated keeper, whose dispatch comes before it; or its wrapped result decides as the exact one
would. -/
def ComparesAsExact (p : Profile) (next current : U32) (isDesignated : Bool) : Prop :=
  next.val + 50 ≤ 4294967295 ∨
    match p with
    | .debug => current.val ≤ next.val ∨ isDesignated = true
    | .release => (current.val = next.val ∧ isDesignated = true) ∨
        current.val ≤ next.val + 50 - 4294967296

instance : Decidable (ComparesAsExact p next current isDesignated) :=
  match p with
  | .debug => inferInstanceAs (Decidable (_ ∨ _ ∨ _))
  | .release => inferInstanceAs (Decidable (_ ∨ (_ ∧ _) ∨ _))

/-- The decision agrees with the arbitration of a registered caller exactly when the comparison
does not go wrong. -/
theorem decision_agrees_iff :
    (((∃ role, decision p next current isDesignated = some role) ↔
        (regionOf next.val current.val).refusal isDesignated true = none) ∧
      ∀ role, decision p next current isDesignated = some role →
        role.region = regionOf next.val current.val) ↔
      ComparesAsExact p next current isDesignated := by
  have hcurrent := current.bounds
  have hnext := next.bounds
  by_cases hfits : next.val + 50 ≤ 4294967295
  · rw [decision_of_fits hfits]
    refine iff_of_true ⟨exists_regionRole_iff, ?_⟩ (Or.inl hfits)
    intro role hrole
    exact (regionRole_eq_some_iff.1 hrole).2
  · have hover := not_le.1 hfits
    unfold ComparesAsExact
    rw [or_iff_right hfits]
    -- The ledger is not past the grace period, so three regions remain.
    rcases lt_trichotomy current.val next.val with hlt | hat | hgt
    · have hregion : regionOf next.val current.val = .preWindow := if_pos hlt
      rw [hregion]
      cases p with
      | debug =>
          rw [decision_debug_of_overflow hover, if_neg fun h => hlt.ne h.1]
          simp [Region.refusal, hlt.le]
      | release =>
          rw [decision_release_of_overflow hover, if_neg fun h => hlt.ne h.1]
          by_cases hwrap : next.val + 50 - 4294967296 < current.val
          · simp [Region.refusal, hwrap, hlt.ne, not_le.2 hwrap]
          · simp [Region.refusal, hwrap, not_lt.1 hwrap]
    · rw [Anchor.regionOf_eq_designated hat]
      cases p with
      | debug =>
          rw [decision_debug_of_overflow hover]
          cases isDesignated <;> simp [Region.refusal, ExecutionRole.region, hat]
      | release =>
          rw [decision_release_of_overflow hover]
          cases isDesignated with
          | true => simp [Region.refusal, ExecutionRole.region, hat]
          | false =>
              have hwrap : next.val + 50 - 4294967296 < current.val := by omega
              simp [Region.refusal, hwrap, not_le.2 hwrap]
    · rw [Anchor.regionOf_eq_grace hgt (by omega)]
      cases p with
      | debug =>
          rw [decision_debug_of_overflow hover, if_neg fun h => hgt.ne' h.1]
          cases isDesignated <;> simp [Region.refusal, not_le.2 hgt]
      | release =>
          have hwrap : next.val + 50 - 4294967296 < current.val := by omega
          rw [decision_release_of_overflow hover, if_neg fun h => hgt.ne' h.1, if_pos hwrap]
          cases isDesignated <;>
            simp [Region.refusal, ExecutionRole.region, hgt.ne', not_le.2 hwrap]

section Contract

variable {Address TokenState : Type} [DecidableEq Address]

/-- The remote task is the on-chain record as the engine receives it, with the addresses in their
string form `encode`. -/
structure Represents (crates : Crates) (encode : Address → String) (remote : RemoteTask)
    (task : ExecutionTask Address) : Prop where
  taskId : parseTaskId crates remote.taskIdHex = task.taskId
  targetDripList : remote.targetDripList = encode task.targetDripList
  executionIntervalLedgers : remote.executionIntervalLedgers = task.executionIntervalLedgers
  nextAllowedExecution : remote.nextAllowedExecution = task.nextAllowedExecution
  microRewardPerRun : remote.microRewardPerRun = task.microRewardPerRun
  designatedKeeper : remote.designatedKeeper = encode task.designatedKeeper

/-- At the ledger of the environment, the engine dispatches the task exactly when the contract
accepts the keeper, and in the role of the region. -/
structure Agrees (crates : Crates) (p q : Profile) (pipeline : ExecutionPipeline)
    (remote : RemoteTask) (s : InFlightSet) (host : Host Address TokenState)
    (inv : Invocation Address TokenState) (env : Env Address TokenState)
    (task : ExecutionTask Address) (caller : Address) : Prop where
  dispatches_iff : (∃ role, Dispatches crates p pipeline remote env.ledgerSequence s role) ↔
    AcceptsCaller host q inv env task.taskId caller
  role_region : ∀ role, Dispatches crates p pipeline remote env.ledgerSequence s role →
    role.region = regionOf task.nextAllowedExecution.val env.ledgerSequence.val

variable {crates : Crates} {encode : Address → String} {pipeline : ExecutionPipeline}
  {remote : RemoteTask} {s : InFlightSet} {host : Host Address TokenState}
  {inv : Invocation Address TokenState} {env : Env Address TokenState}
  {task : ExecutionTask Address} {caller : Address} {role : ExecutionRole}

/-- What the engine of a keeper dispatches, in the terms of the record. -/
theorem dispatches_iff_decision_record (hencode : Function.Injective encode)
    (hrep : Represents crates encode remote task)
    (hkeeper : pipeline.keeperAddress = encode caller)
    (hs : parseTaskId crates remote.taskIdHex ∉ s) :
    Dispatches crates p pipeline remote current s role ↔
      decision p task.nextAllowedExecution current (decide (caller = task.designatedKeeper)) =
        some role := by
  have hdesignated : decide (remote.designatedKeeper = pipeline.keeperAddress) =
      decide (caller = task.designatedKeeper) := by
    rw [hrep.designatedKeeper, hkeeper]
    exact decide_eq_decide.2 (hencode.eq_iff.trans eq_comm)
  rw [dispatches_iff_decision hs, hrep.nextAllowedExecution, hdesignated]

/-- Whom the contract accepts, in the terms of the record. -/
theorem acceptsCaller_iff_refusal (htask : env.tasks.lookup task.taskId = some task)
    (hauth : inv.authorized caller = true) (hregistered : isRegistered env caller = true)
    (q : Profile) :
    AcceptsCaller host q inv env task.taskId caller ↔
      (regionOf task.nextAllowedExecution.val env.ledgerSequence.val).refusal
        (decide (caller = task.designatedKeeper)) true = none := by
  rw [acceptsCaller_iff host q htask hauth]
  unfold PassesArbitration
  rw [hregistered]

/-- For a task that is not in flight and a registered keeper, the engine and the contract agree at
a ledger exactly when the comparison of the engine does not go wrong there. -/
theorem windows_agree_iff (p q : Profile) (hencode : Function.Injective encode)
    (hrep : Represents crates encode remote task)
    (hkeeper : pipeline.keeperAddress = encode caller)
    (hs : parseTaskId crates remote.taskIdHex ∉ s)
    (htask : env.tasks.lookup task.taskId = some task)
    (hauth : inv.authorized caller = true) (hregistered : isRegistered env caller = true) :
    Agrees crates p q pipeline remote s host inv env task caller ↔
      ComparesAsExact p task.nextAllowedExecution env.ledgerSequence
        (decide (caller = task.designatedKeeper)) := by
  have hdispatches : ∀ role, Dispatches crates p pipeline remote env.ledgerSequence s role ↔ _ :=
    fun role => dispatches_iff_decision_record hencode hrep hkeeper hs
  have haccepts : AcceptsCaller host q inv env task.taskId caller ↔ _ :=
    acceptsCaller_iff_refusal htask hauth hregistered q
  rw [← decision_agrees_iff]
  constructor
  · intro h
    refine ⟨?_, fun role hrole => h.role_region role ((hdispatches role).2 hrole)⟩
    rw [← haccepts, ← h.dispatches_iff]
    exact exists_congr fun role => (hdispatches role).symm
  · rintro ⟨hiff, hregion⟩
    refine ⟨?_, fun role hrole => hregion role ((hdispatches role).1 hrole)⟩
    rw [haccepts, ← hiff]
    exact exists_congr hdispatches

/-! ## Landing one ledger later -/

theorem not_dispatches_of_inFlight (hs : parseTaskId crates remote.taskIdHex ∈ s) :
    ¬ Dispatches crates p pipeline remote current s role := by
  intro h
  have hnone : firstSubmission
      ((TaskDiscovery.wired pipeline).classifyAndDispatch crates p remote current) s = none := by
    unfold TaskDiscovery.classifyAndDispatch
    rw [firstSubmission_contains,
      decide_eq_true (show parseHex crates remote.taskIdHex ∈ s from hs)]
    rfl
  cases hnone.symm.trans h

/-- A role taken on in a region is still accepted one ledger later, unless it is the designated
one. -/
theorem regionRole_lands_iff {scheduled ledger : Int} :
    ((∃ role, regionRole (regionOf scheduled ledger) isDesignated = some role) →
        (regionOf scheduled (ledger + 1)).refusal isDesignated true = none) ↔
      ¬ (ledger = scheduled ∧ isDesignated = true) := by
  rw [exists_regionRole_iff]
  rcases lt_trichotomy ledger scheduled with hlt | hat | hgt
  · have hregion : regionOf scheduled ledger = .preWindow := if_pos hlt
    simp [hregion, Region.refusal, hlt.ne]
  · rw [Anchor.regionOf_eq_designated hat, Anchor.regionOf_eq_grace (by omega) (by omega)]
    cases isDesignated <;> simp [Region.refusal, hat]
  · have hne : ¬ (ledger = scheduled ∧ isDesignated = true) := fun h => hgt.ne' h.1
    refine iff_of_true ?_ hne
    by_cases hend : ledger ≤ scheduled + 50
    · rw [Anchor.regionOf_eq_grace hgt hend]
      by_cases hnext : ledger + 1 ≤ scheduled + 50
      · rw [Anchor.regionOf_eq_grace (by omega) hnext]
        exact id
      · rw [Anchor.regionOf_eq_postGrace (by omega)]
        exact fun _ => rfl
    · rw [Anchor.regionOf_eq_postGrace (by omega), Anchor.regionOf_eq_postGrace (by omega)]
      exact id

/-- What a registered keeper dispatches at a ledger is accepted at the next one, for the record as
it was, exactly unless the task is free and its designated keeper dispatches in the designated
window: that window is over when the transaction lands. -/
theorem dispatch_lands_iff (p q : Profile) (hencode : Function.Injective encode)
    (hrep : Represents crates encode remote task)
    (hkeeper : pipeline.keeperAddress = encode caller)
    (htask : env.tasks.lookup task.taskId = some task)
    (hauth : inv.authorized caller = true) (hregistered : isRegistered env caller = true)
    (hlanding : env.ledgerSequence.val = current.val + 1)
    (hfits : task.nextAllowedExecution.val + 50 ≤ 4294967295) :
    ((∃ role, Dispatches crates p pipeline remote current s role) →
        AcceptsCaller host q inv env task.taskId caller) ↔
      parseTaskId crates remote.taskIdHex ∈ s ∨
        ¬ (current.val = task.nextAllowedExecution.val ∧ caller = task.designatedKeeper) := by
  by_cases hs : parseTaskId crates remote.taskIdHex ∈ s
  · refine iff_of_true ?_ (Or.inl hs)
    rintro ⟨role, hrole⟩
    exact absurd hrole (not_dispatches_of_inFlight hs)
  · have hdispatches : (∃ role, Dispatches crates p pipeline remote current s role) ↔ _ :=
      exists_congr fun role => dispatches_iff_decision_record hencode hrep hkeeper hs
    rw [or_iff_right hs, hdispatches, decision_of_fits hfits,
      acceptsCaller_iff_refusal htask hauth hregistered q, hlanding, regionRole_lands_iff,
      decide_eq_true_eq]

end Contract

/-! ## Samples -/

/-- The record that the sample remote task stands for. -/
def sampleTask (next : U32) : ExecutionTask Nat where
  taskId := Anchor.sampleSha256 (Anchor.taskSeed 0 0)
  targetDripList := 5
  executionIntervalLedgers := next
  nextAllowedExecution := next
  microRewardPerRun := 30
  designatedKeeper := 3

theorem parseTaskId_sample :
    parseTaskId sampleCrates sampleTaskIdHex = Anchor.sampleSha256 (Anchor.taskSeed 0 0) := by
  decide +kernel

theorem represents_sampleTask (next : U32) :
    Represents sampleCrates sampleEncode (sampleRemoteTask next) (sampleTask next) where
  taskId := parseTaskId_sample
  targetDripList := rfl
  executionIntervalLedgers := rfl
  nextAllowedExecution := rfl
  microRewardPerRun := rfl
  designatedKeeper := rfl

theorem sampleEncode_injective : Function.Injective sampleEncode := by
  intro a b h
  have hrepr : Nat.repr a = Nat.repr b := (String.append_right_inj "G").1 h
  -- The digits of a number determine it.
  have hdigits := congrArg (fun s => Nat.ofDigitChars 10 s.toList 0) hrepr
  simpa only [Nat.toList_repr, Nat.ofDigitChars_toDigits (show 1 < 10 by decide) le_rfl]
    using hdigits

/-- The contract at a ledger: the keepers 3 and 4 are registered and a task of the keeper 3 was
provisioned at the ledger 0. -/
def sampleContract (next current : U32) : Env Nat (TokenLedger Nat) :=
  run (Anchor.step Anchor.sampleHost .debug) (Anchor.deployed (Anchor.sampleTokens 1000) 0)
    [.call Anchor.sampleInvocation (.initializeContract 2 1 1),
      .call Anchor.sampleInvocation (.registerKeeper 3 400),
      .call Anchor.sampleInvocation (.registerKeeper 4 600),
      .call Anchor.sampleInvocation (.provisionTask 5 next 30 3), .closeLedger current]

/-- In the grace period the engine of the keeper 4 and the contract agree. -/
theorem windows_agree_sample :
    Agrees sampleCrates .debug .debug (samplePipeline 4) (sampleRemoteTask 10) ∅
      Anchor.sampleHost Anchor.sampleInvocation (sampleContract 10 11) (sampleTask 10) 4 :=
  (windows_agree_iff .debug .debug sampleEncode_injective (represents_sampleTask 10) rfl
    (Finset.notMem_empty _) (by decide +kernel) rfl (by decide +kernel)).2 (by decide +kernel)

theorem dispatches_sample_iff {p : Profile} {keeper : Nat} {next current : U32}
    {role : ExecutionRole} :
    Dispatches sampleCrates p (samplePipeline keeper) (sampleRemoteTask next) current ∅ role ↔
      decision p next current (decide (keeper = 3)) = some role :=
  dispatches_iff_decision_record sampleEncode_injective (represents_sampleTask next) rfl
    (Finset.notMem_empty _)

/-- The task is scheduled for the ledger 4294967260, so its grace period ends past the last `u32`,
and the contract accepts the keeper 4 at the ledger 4294967270. In the debug profile the engine
dispatches nothing there; in the release profile it dispatches in the role of another region. -/
theorem windows_disagree_near_max :
    ¬ Agrees sampleCrates .debug .debug (samplePipeline 4) (sampleRemoteTask 4294967260) ∅
        Anchor.sampleHost Anchor.sampleInvocation (sampleContract 4294967260 4294967270)
        (sampleTask 4294967260) 4 ∧
      ¬ Agrees sampleCrates .release .debug (samplePipeline 4) (sampleRemoteTask 4294967260) ∅
        Anchor.sampleHost Anchor.sampleInvocation (sampleContract 4294967260 4294967270)
        (sampleTask 4294967260) 4 := by
  constructor
  · intro h
    have haccepts : AcceptsCaller Anchor.sampleHost .debug Anchor.sampleInvocation
        (sampleContract 4294967260 4294967270) (sampleTask 4294967260).taskId 4 :=
      (acceptsCaller_iff_refusal (by decide +kernel) rfl (by decide +kernel) .debug).2
        (by decide +kernel)
    obtain ⟨role, hrole⟩ := h.dispatches_iff.2 haccepts
    have hdecision := dispatches_sample_iff.1 hrole
    have hnone : decision .debug 4294967260 4294967270 (decide (4 = 3)) = none := by decide
    cases hnone.symm.trans hdecision
  · intro h
    have hrole := h.role_region .postGrace
      (dispatches_sample_iff.2 (show decision .release 4294967260 4294967270 _ = _ by decide))
    cases hrole

/-- The keeper 4 dispatches in the grace period, and is accepted at the next ledger. -/
theorem dispatch_lands_sample :
    (∃ role, Dispatches sampleCrates .debug (samplePipeline 4) (sampleRemoteTask 10) 11 ∅ role) ∧
      AcceptsCaller Anchor.sampleHost .debug Anchor.sampleInvocation (sampleContract 10 12)
        (sampleTask 10).taskId 4 := by
  have hdispatches : ∃ role, Dispatches sampleCrates .debug (samplePipeline 4)
      (sampleRemoteTask 10) 11 ∅ role :=
    ⟨.secondary, dispatches_sample_iff.2 (by decide)⟩
  refine ⟨hdispatches, (dispatch_lands_iff .debug .debug sampleEncode_injective
    (represents_sampleTask 10) rfl (by decide +kernel) rfl (by decide +kernel) rfl
    (by decide)).2 (Or.inr fun h => absurd h.2 (by decide)) hdispatches⟩

/-- The designated keeper 3 dispatches in its window, at the ledger 10, and is turned away at the
ledger 11. -/
theorem designated_dispatch_refused :
    (∃ role, Dispatches sampleCrates .debug (samplePipeline 3) (sampleRemoteTask 10) 10 ∅ role) ∧
      ¬ AcceptsCaller Anchor.sampleHost .debug Anchor.sampleInvocation (sampleContract 10 11)
        (sampleTask 10).taskId 3 := by
  refine ⟨⟨.designated, dispatches_sample_iff.2 (by decide)⟩, ?_⟩
  rw [acceptsCaller_iff_refusal (by decide +kernel) rfl (by decide +kernel) .debug]
  decide +kernel

end ChronosKeeper.Engine
