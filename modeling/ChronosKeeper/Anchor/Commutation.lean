import ChronosKeeper.Anchor.Acceptance

/-!
# Executions in the same ledger commute

Two executions of different tasks in one ledger succeed in either order or in neither, and both
orders lead to the same records, tasks, treasury and contract balance (`executions_commute`). Each
execution updates every record by a function of that record alone, and these functions commute
(`recordAfter_comm`). What depends on the order are the amounts of two slashes of the same keeper:
the second is taken from what the first has left. Their sums do not (`graceAmount_comm`), so only
the shares of two different callers can differ.

Overflow aborts, and the drip lists have no part in the token balances.
-/

set_option autoImplicit false

namespace ChronosKeeper.Anchor

open ChronosKeeper.Foundations

variable {Address TokenState : Type} [DecidableEq Address]

/-- The two tasks are in their grace periods and have the same designated keeper. -/
def ShareSlash (env : Env Address TokenState) (a b : ExecutionTask Address) : Prop :=
  InGrace env a ∧ InGrace env b ∧ a.designatedKeeper = b.designatedKeeper

/-- An amount that depends on the stake slashed by an execution of the task, zero without a slash. -/
def graceAmount (F : Int → Int) (env : Env Address TokenState) (task : ExecutionTask Address) :
    Int :=
  if InGrace env task then
    match env.keepers.lookup task.designatedKeeper with
    | some k => F k.stakeAmount.val
    | none => 0
  else 0

/-- The two environments agree on the accounts of the contract. -/
structure SameAccounts (host : Host Address TokenState) (env env' : Env Address TokenState) :
    Prop where
  keepers : env.keepers = env'.keepers
  tasks : env.tasks = env'.tasks
  treasuryBalance : env.treasuryBalance = env'.treasuryBalance
  balance : ∀ token, contractBalance host env token = contractBalance host env' token

variable {host : Host Address TokenState} {inv inv' : Invocation Address TokenState}
  {env env₁ env₂ env₁₂ env₂₁ : Env Address TokenState} {i j : TaskId}
  {a b : ExecutionTask Address} {c d : Address} {F : Int → Int}

theorem graceReward_eq_graceAmount (env : Env Address TokenState) (a : ExecutionTask Address) :
    graceReward env a = graceAmount secondaryRewardOf env a := rfl

theorem graceCredit_eq_graceAmount (env : Env Address TokenState) (a : ExecutionTask Address) :
    graceCredit env a = graceAmount treasuryPortionOf env a := rfl

theorem graceAmount_of_inGrace (hin : InGrace env a) {k : Keeper Address}
    (hk : env.keepers.lookup a.designatedKeeper = some k) :
    graceAmount F env a = F k.stakeAmount.val := by
  simp only [graceAmount, if_pos hin, hk]

theorem graceAmount_of_not_inGrace (hnot : ¬ InGrace env a) : graceAmount F env a = 0 :=
  if_neg hnot

/-! ## Records -/

/-- The updates of two executions commute: each is a slash, a credit, both or neither. -/
theorem recordAfter_comm (x : Address) (k : Keeper Address) :
    recordAfter env b d x (recordAfter env a c x k) =
      recordAfter env a c x (recordAfter env b d x k) := by
  simp only [recordAfter]
  split_ifs <;> rfl

omit [DecidableEq Address] in
theorem inGrace_congr (hledger : env₁.ledgerSequence = env.ledgerSequence) :
    InGrace env₁ b ↔ InGrace env b := by
  unfold InGrace
  rw [hledger]

/-- Only the ledger matters for the update of a record. -/
theorem recordAfter_congr (hledger : env₁.ledgerSequence = env.ledgerSequence) (x : Address)
    (k : Keeper Address) : recordAfter env₁ b d x k = recordAfter env b d x k := by
  simp only [recordAfter, hledger, inGrace_congr hledger]

/-- Without a shared slash, an execution leaves the stake that the other one slashes. -/
theorem stakeAmount_recordAfter_of_not_share (hnot : ¬ ShareSlash env a b) (hin : InGrace env b)
    (k : Keeper Address) :
    (recordAfter env a c b.designatedKeeper k).stakeAmount.val = k.stakeAmount.val := by
  rw [recordAfter_stakeAmount, if_neg]
  rintro ⟨ha, hsame⟩
  exact hnot ⟨ha, hin, hsame.symm⟩

/-! ## What one execution leaves to the other -/

section Frame

variable (h : Staked env) (hexec : Executes host .debug inv env i a c env₁)
include h hexec

theorem lookup_after (x : Address) {k : Keeper Address} (hk : env.keepers.lookup x = some k) :
    env₁.keepers.lookup x = some (recordAfter env a c x k) := by
  rw [hexec.lookup_keepers h.wellFormed, hk, Option.map_some]

/-- Another task stays as it is. -/
theorem lookup_tasks_after (ha : env.tasks.lookup i = some a) (hji : j ≠ i) :
    env₁.tasks.lookup j = env.tasks.lookup j := by
  obtain ⟨next, -, hlookup⟩ := hexec.lookup_tasks h.wellFormed ha
  rw [hlookup, if_neg hji]

theorem isRegistered_after (x : Address) : isRegistered env₁ x = isRegistered env x := by
  unfold isRegistered
  rw [hexec.lookup_keepers h.wellFormed, Option.isSome_map]

theorem passes_after (b : ExecutionTask Address) (d : Address) :
    PassesArbitration env₁ b d ↔ PassesArbitration env b d := by
  unfold PassesArbitration
  rw [hexec.instance_eq.1, isRegistered_after h hexec]

/-- Without a shared slash, the other execution slashes the same stake before and after. -/
theorem graceAmount_after_of_not_share (hnot : ¬ ShareSlash env a b) {k : Keeper Address}
    (hk : env.keepers.lookup b.designatedKeeper = some k) :
    graceAmount F env₁ b = graceAmount F env b := by
  have hledger := hexec.instance_eq.1
  by_cases hin : InGrace env b
  · rw [graceAmount_of_inGrace hin hk,
      graceAmount_of_inGrace ((inGrace_congr hledger).2 hin) (lookup_after h hexec _ hk),
      stakeAmount_recordAfter_of_not_share hnot hin]
  · have hin₁ : ¬ InGrace env₁ b := fun hin₁ => hin ((inGrace_congr hledger).1 hin₁)
    rw [graceAmount_of_not_inGrace hin, graceAmount_of_not_inGrace hin₁]

/-- With a shared slash, it slashes what the first one has left. -/
theorem graceAmount_after_of_share (hshare : ShareSlash env a b) {k : Keeper Address}
    (hk : env.keepers.lookup b.designatedKeeper = some k) :
    graceAmount F env₁ b = F (slashedStake k.stakeAmount.val) := by
  obtain ⟨ha, hb, hsame⟩ := hshare
  rw [graceAmount_of_inGrace ((inGrace_congr hexec.instance_eq.1).2 hb) (lookup_after h hexec _ hk),
    recordAfter_stakeAmount, if_pos ⟨ha, hsame.symm⟩]

omit h in
theorem treasury_after :
    treasury env₁ = treasury env + graceAmount treasuryPortionOf env a := by
  rw [hexec.treasury_eq.1, graceCredit_eq_graceAmount]

/-- The first execution takes its cost from the balance of the contract. -/
theorem contractBalance_after (hc : c ≠ host.currentContractAddress)
    (ha : env.tasks.lookup i = some a) (hdrip : InertDrip host inv a.targetDripList)
    {token : Address} (htoken : env.nativeToken = some token) :
    contractBalance host env₁ token = contractBalance host env token - costOf env a :=
  (hexec.paid h hc ha hdrip htoken).spent

end Frame

omit [DecidableEq Address] in
theorem ShareSlash.symm (hshare : ShareSlash env a b) : ShareSlash env b a :=
  ⟨hshare.2.1, hshare.1, hshare.2.2.symm⟩

theorem graceAmount_nonneg (h : Staked env) (hF : ∀ s, 0 ≤ s → 0 ≤ F s)
    (a : ExecutionTask Address) : 0 ≤ graceAmount F env a := by
  unfold graceAmount
  split
  · split
    · rename_i k hk
      have hpos : 1 ≤ k.stakeAmount.val := h.stakes _ k hk
      exact hF _ (by omega)
    · exact le_refl 0
  · exact le_refl 0

theorem slashedStake_nonneg {s : Int} (hs : 0 ≤ s) : 0 ≤ slashedStake s ∧ slashedStake s ≤ s := by
  have hq := MachineInt.tdiv_spec_of_nonneg (x := s * 5) (b := 100) (by omega) (by omega)
  unfold slashedStake
  omega

/-- A task that goes first slashes no more than both slash together when it goes second. -/
theorem graceAmount_le_of_first (h : Staked env) (hF : ∀ s, 0 ≤ s → 0 ≤ F s)
    (hexec : Executes host .debug inv env i a c env₁) {k : Keeper Address}
    (hk : env.keepers.lookup b.designatedKeeper = some k) :
    graceAmount F env b ≤ graceAmount F env a + graceAmount F env₁ b := by
  by_cases hshare : ShareSlash env a b
  · have hpos : 1 ≤ k.stakeAmount.val := h.stakes _ k hk
    have hleft := hF _ (slashedStake_nonneg (s := k.stakeAmount.val) (by omega)).1
    obtain ⟨ha, hb, hsame⟩ := hshare
    rw [graceAmount_after_of_share h hexec ⟨ha, hb, hsame⟩ hk, graceAmount_of_inGrace hb hk,
      graceAmount_of_inGrace ha (hsame ▸ hk)]
    omega
  · have hnonneg := graceAmount_nonneg h hF a
    rw [graceAmount_after_of_not_share h hexec hshare hk]
    omega

/-- Together the two slashes come to the same in either order. -/
theorem graceAmount_comm (h : Staked env) (hA : Executes host .debug inv env i a c env₁)
    (hB : Executes host .debug inv' env j b d env₂) {ka kb : Keeper Address}
    (hka : env.keepers.lookup a.designatedKeeper = some ka)
    (hkb : env.keepers.lookup b.designatedKeeper = some kb) :
    graceAmount F env a + graceAmount F env₁ b = graceAmount F env b + graceAmount F env₂ a := by
  by_cases hshare : ShareSlash env a b
  · have hsame := hshare.2.2
    rw [hsame, hkb] at hka
    obtain rfl : kb = ka := Option.some.inj hka
    have hka' : env.keepers.lookup a.designatedKeeper = some kb := hsame ▸ hkb
    rw [graceAmount_after_of_share h hA hshare hkb,
      graceAmount_after_of_share h hB hshare.symm hka', graceAmount_of_inGrace hshare.1 hka',
      graceAmount_of_inGrace hshare.2.1 hkb]
  · have hnot : ¬ ShareSlash env b a := fun hs => hshare hs.symm
    rw [graceAmount_after_of_not_share h hA hshare hkb,
      graceAmount_after_of_not_share h hB hnot hka]
    omega

/-! ## Executing in the other order -/

/-- The amounts of the treasury stay in range when an executable task is executed. -/
theorem treasury_fits (hfits : ArithmeticFits env a c) {k : Keeper Address}
    (hk : env.keepers.lookup a.designatedKeeper = some k) :
    IntTy.i128.InRange (treasury env + graceAmount treasuryPortionOf env a) := by
  by_cases hin : InGrace env a
  · rw [graceAmount_of_inGrace hin hk]
    exact (hfits.slash hin k hk).2
  · rw [graceAmount_of_not_inGrace hin, add_zero]
    exact (env.treasuryBalance.getD 0).inRange

/-- The arithmetic of an execution that can go second fits before the first one as well. -/
theorem fits_first (h : Staked env) (ha : env.tasks.lookup i = some a)
    (hb : env.tasks.lookup j = some b) (hA : Executes host .debug inv env i a c env₁)
    (hsecond : ArithmeticFits env₁ b d) : ArithmeticFits env b d := by
  obtain ⟨kb, hkb⟩ := h.wellFormed.designated hb
  have hledger := hA.instance_eq.1
  have hfitsA := hA.fits h.wellFormed ha
  constructor
  · rw [← hledger]
    exact hsecond.schedule
  · intro k hk
    -- The counter of the second caller was not higher before the first execution.
    have hlater := hsecond.counter _ (lookup_after h hA _ hk)
    have hfit : d = c → IntTy.u64.InRange (k.totalExecutions.val + 1) := by
      rintro rfl
      exact hfitsA.counter k hk
    rw [recordAfter_totalExecutions hfit] at hlater
    by_cases hdc : d = c
    · exact hfit hdc
    · rw [if_neg hdc, add_zero] at hlater
      exact hlater
  · intro hin k hk
    rw [Option.mem_def, hkb] at hk
    obtain rfl : kb = k := Option.some.inj hk
    by_cases hshare : ShareSlash env a b
    · -- A shared slash takes the same amounts whichever execution it belongs to.
      exact hfitsA.slash hshare.1 kb (hshare.2.2 ▸ hkb)
    · have hslash := hsecond.slash ((inGrace_congr hledger).2 hin) _ (lookup_after h hA _ hkb)
      rw [stakeAmount_recordAfter_of_not_share hshare hin, treasury_after hA] at hslash
      refine ⟨hslash.1, ?_⟩
      have hgrown := graceAmount_nonneg (F := treasuryPortionOf) h
        (fun s hs => treasuryPortionOf_nonneg hs) a
      have hpos : 1 ≤ kb.stakeAmount.val := h.stakes _ kb hkb
      have hportion := treasuryPortionOf_nonneg (s := kb.stakeAmount.val) (by omega)
      have hbounds := (env.treasuryBalance.getD 0).bounds
      have hsum := hslash.2
      have hval : treasury env = (env.treasuryBalance.getD 0).val := rfl
      rw [IntTy.inRange_i128] at hsum ⊢
      omega

/-- A task that can be executed second could have been executed first. -/
theorem executable_first (h : Staked env) (hc : c ≠ host.currentContractAddress)
    (ha : env.tasks.lookup i = some a) (hb : env.tasks.lookup j = some b)
    (hdripA : InertDrip host inv a.targetDripList) (hdripB : InertDrip host inv' b.targetDripList)
    (hA : Executes host .debug inv env i a c env₁)
    (hsecond : Executable host inv' env₁ j b d) : Executable host inv' env j b d := by
  obtain ⟨kb, hkb⟩ := h.wellFormed.designated hb
  constructor
  · exact hb
  · exact hsecond.authorized
  · rw [hdripB.returns env.tokens env₁.tokens]
    exact hsecond.drip
  · exact (passes_after h hA b d).1 hsecond.passes
  · exact fits_first h ha hb hA hsecond.fits
  · intro token htoken
    have hcovered := hsecond.covered token (hA.instance_eq.2.2.1.trans htoken)
    have hle := graceAmount_le_of_first (F := secondaryRewardOf) h
      (fun s hs => secondaryRewardOf_nonneg hs) hA hkb
    have hmicro := h.wellFormed.microReward_pos ha
    rw [contractBalance_after h hA hc ha hdripA htoken] at hcovered
    unfold costOf at hcovered ⊢
    rw [graceReward_eq_graceAmount] at hcovered ⊢
    rw [graceReward_eq_graceAmount] at hcovered
    omega

/-- The arithmetic of an execution that can go first fits after the other one as well. -/
theorem fits_second (h : Staked env) (ha : env.tasks.lookup i = some a)
    (hb : env.tasks.lookup j = some b) (hfirst : ArithmeticFits env a c)
    (hA : Executes host .debug inv env i a c env₁) (hB : Executes host .debug inv' env j b d env₂)
    (hsecond : ArithmeticFits env₁ b d) : ArithmeticFits env₂ a c := by
  obtain ⟨ka, hka⟩ := h.wellFormed.designated ha
  obtain ⟨kb, hkb⟩ := h.wellFormed.designated hb
  have hledger := hB.instance_eq.1
  have hka₂ := lookup_after h hB _ hka
  constructor
  · rw [hledger]
    exact hfirst.schedule
  · intro k₂ hk₂
    obtain ⟨k, hk⟩ := hA.caller_registered
    rw [Option.mem_def, lookup_after h hB _ hk] at hk₂
    obtain rfl := Option.some.inj hk₂
    have hfit := hfirst.counter k hk
    rw [recordAfter_totalExecutions fun _ => hfit]
    by_cases hcd : c = d
    · -- One caller for both: the second counter was checked in the first order.
      have hlater := hsecond.counter _ (lookup_after h hA d (hcd ▸ hk))
      rw [recordAfter_totalExecutions fun _ => hfit, if_pos hcd.symm] at hlater
      rw [if_pos hcd]
      exact hlater
    · rw [if_neg hcd, add_zero]
      exact hfit
  · intro hin k₂ hk₂
    rw [Option.mem_def, hka₂] at hk₂
    obtain rfl := Option.some.inj hk₂
    have hina := (inGrace_congr hledger).1 hin
    have hpos : 1 ≤ ka.stakeAmount.val := h.stakes _ ka hka
    have hslashed := slashedStake_nonneg (s := ka.stakeAmount.val) (by omega)
    constructor
    · have hproduct := (hfirst.slash hina ka hka).1
      rw [recordAfter_stakeAmount]
      rw [IntTy.inRange_i128] at hproduct ⊢
      split
      · omega
      · omega
    · -- The two credits add up to what they add up to in the first order.
      have hsum := treasury_fits hsecond (lookup_after h hA _ hkb)
      have hcomm := graceAmount_comm (F := treasuryPortionOf) h hA hB hka hkb
      have hlast := graceAmount_of_inGrace (F := treasuryPortionOf) hin hka₂
      rw [treasury_after hA, add_assoc, hcomm, ← add_assoc, ← treasury_after hB, hlast] at hsum
      exact hsum

/-- A task that was executed first can be executed second. -/
theorem executable_second (h : Staked env) (hij : i ≠ j)
    (hc : c ≠ host.currentContractAddress) (hd : d ≠ host.currentContractAddress)
    (ha : env.tasks.lookup i = some a) (hb : env.tasks.lookup j = some b)
    (hdripA : InertDrip host inv a.targetDripList) (hdripB : InertDrip host inv' b.targetDripList)
    (hfirst : Executable host inv env i a c) (hA : Executes host .debug inv env i a c env₁)
    (hB : Executes host .debug inv' env j b d env₂)
    (hsecond : Executable host inv' env₁ j b d) : Executable host inv env₂ i a c := by
  obtain ⟨ka, hka⟩ := h.wellFormed.designated ha
  obtain ⟨kb, hkb⟩ := h.wellFormed.designated hb
  constructor
  · exact (lookup_tasks_after h hB hb hij).trans ha
  · exact hfirst.authorized
  · rw [hdripA.returns env₂.tokens env.tokens]
    exact hfirst.drip
  · exact (passes_after h hB a c).2 hfirst.passes
  · exact fits_second h ha hb hfirst.fits hA hB hsecond.fits
  · intro token htoken
    have htoken' : env.nativeToken = some token := hB.instance_eq.2.2.1.symm.trans htoken
    have hcovered := hsecond.covered token (hA.instance_eq.2.2.1.trans htoken')
    have hcomm := graceAmount_comm (F := secondaryRewardOf) h hA hB hka hkb
    rw [contractBalance_after h hA hc ha hdripA htoken'] at hcovered
    rw [contractBalance_after h hB hd hb hdripB htoken']
    unfold costOf at hcovered ⊢
    simp only [graceReward_eq_graceAmount] at hcovered ⊢
    omega

/-! ## The state after both -/

section Both

variable (h : Staked env) (hij : i ≠ j) (ha : env.tasks.lookup i = some a)
  (hb : env.tasks.lookup j = some b) (hA : Executes host .debug inv env i a c env₁)
  (hB : Executes host .debug inv' env j b d env₂)
  (hAB : Executes host .debug inv' env₁ j b d env₁₂)
  (hBA : Executes host .debug inv env₂ i a c env₂₁)
include h ha hb hA hB hAB hBA

theorem keepers_comm : env₁₂.keepers = env₂₁.keepers := by
  apply Finmap.ext_lookup
  intro x
  rw [hAB.lookup_keepers (hA.staked h ha).wellFormed, hA.lookup_keepers h.wellFormed,
    hBA.lookup_keepers (hB.staked h hb).wellFormed, hB.lookup_keepers h.wellFormed,
    Option.map_map, Option.map_map]
  congr 1
  funext k
  show recordAfter env₁ b d x (recordAfter env a c x k) =
    recordAfter env₂ a c x (recordAfter env b d x k)
  rw [recordAfter_congr hA.instance_eq.1, recordAfter_congr hB.instance_eq.1, recordAfter_comm]

include hij in
theorem tasks_comm : env₁₂.tasks = env₂₁.tasks := by
  obtain ⟨nextA, hnextA, hlookupA⟩ := hA.lookup_tasks h.wellFormed ha
  obtain ⟨nextB, hnextB, hlookupB⟩ := hB.lookup_tasks h.wellFormed hb
  have hb₁ : env₁.tasks.lookup j = some b := (lookup_tasks_after h hA ha hij.symm).trans hb
  have ha₂ : env₂.tasks.lookup i = some a := (lookup_tasks_after h hB hb hij).trans ha
  obtain ⟨nextB', hnextB', hlookupAB⟩ := hAB.lookup_tasks (hA.staked h ha).wellFormed hb₁
  obtain ⟨nextA', hnextA', hlookupBA⟩ := hBA.lookup_tasks (hB.staked h hb).wellFormed ha₂
  -- The schedules are advanced from the same ledger in either order.
  rw [hA.instance_eq.1, hnextB] at hnextB'
  rw [hB.instance_eq.1, hnextA] at hnextA'
  cases hnextB'
  cases hnextA'
  apply Finmap.ext_lookup
  intro id
  rw [hlookupAB, hlookupBA, hlookupA, hlookupB]
  by_cases hi : id = i
  · rw [if_neg (hi ▸ hij), if_pos hi, if_pos hi]
  · rw [if_neg hi, if_neg hi]

theorem treasuryBalance_comm : env₁₂.treasuryBalance = env₂₁.treasuryBalance := by
  obtain ⟨ka, hka⟩ := h.wellFormed.designated ha
  obtain ⟨kb, hkb⟩ := h.wellFormed.designated hb
  have hcomm := graceAmount_comm (F := treasuryPortionOf) h hA hB hka hkb
  have hinb := inGrace_congr (b := b) hA.instance_eq.1
  have hina := inGrace_congr (b := a) hB.instance_eq.1
  rw [hAB.treasury_eq.2, hBA.treasury_eq.2]
  unfold treasuryAfter
  simp only [graceCredit_eq_graceAmount, treasury_after hA, treasury_after hB, hina, hinb, add_assoc,
    hcomm, hA.treasury_eq.2, hB.treasury_eq.2]
  unfold treasuryAfter
  simp only [graceCredit_eq_graceAmount]
  -- An execution outside the grace period adds nothing.
  by_cases hga : InGrace env a
  · by_cases hgb : InGrace env b
    · rw [if_pos hgb, if_pos hga]
    · have hzero : graceAmount treasuryPortionOf env₁ b = 0 :=
        graceAmount_of_not_inGrace fun hin => hgb (hinb.1 hin)
      rw [if_neg hgb, if_pos hga, if_pos hga, ← hcomm, hzero, add_zero]
  · by_cases hgb : InGrace env b
    · have hzero : graceAmount treasuryPortionOf env₂ a = 0 :=
        graceAmount_of_not_inGrace fun hin => hga (hina.1 hin)
      rw [if_pos hgb, if_neg hga, if_pos hgb, hzero, add_zero]
    · rw [if_neg hgb, if_neg hga, if_neg hga, if_neg hgb]

end Both

/-- What a payment from the contract changes in the balances. -/
theorem Paid.balance_eq {token recipient : Address} {amount : Int} {st st' : TokenState}
    (h : Paid host token recipient amount st st')
    (hne : recipient ≠ host.currentContractAddress) (token' holder : Address) :
    (host.token.balance st' token' holder).val = (host.token.balance st token' holder).val +
      if token' = token then
        (if holder = recipient then amount
          else if holder = host.currentContractAddress then -amount else 0)
      else 0 := by
  by_cases htoken : token' = token
  · subst htoken
    rw [if_pos rfl]
    by_cases hrecipient : holder = recipient
    · subst hrecipient
      rw [if_pos rfl, h.received]
    · rw [if_neg hrecipient]
      by_cases hcontract : holder = host.currentContractAddress
      · rw [if_pos hcontract, hcontract, h.spent]
        omega
      · rw [if_neg hcontract, add_zero, h.others token' holder]
        rintro ⟨-, heq | heq⟩
        · exact hcontract heq
        · exact hrecipient heq
  · rw [if_neg htoken, add_zero, h.others token' holder]
    rintro ⟨heq, -⟩
    exact htoken heq

/-- After both executions every balance is the same in either order, except that two different
callers who share a slash may have received different parts of the rewards. -/
theorem balances_comm (h : Staked env) (hij : i ≠ j)
    (hc : c ≠ host.currentContractAddress) (hd : d ≠ host.currentContractAddress)
    (ha : env.tasks.lookup i = some a) (hb : env.tasks.lookup j = some b)
    (hdripA : InertDrip host inv a.targetDripList) (hdripB : InertDrip host inv' b.targetDripList)
    (hA : Executes host .debug inv env i a c env₁) (hB : Executes host .debug inv' env j b d env₂)
    (hAB : Executes host .debug inv' env₁ j b d env₁₂)
    (hBA : Executes host .debug inv env₂ i a c env₂₁) (token holder : Address)
    (hsame : (holder ≠ c ∧ holder ≠ d) ∨ ¬ (c ≠ d ∧ ShareSlash env a b)) :
    host.token.balance env₁₂.tokens token holder =
      host.token.balance env₂₁.tokens token holder := by
  obtain ⟨native, hnative⟩ := h.wellFormed.configured ha
  obtain ⟨ka, hka⟩ := h.wellFormed.designated ha
  obtain ⟨kb, hkb⟩ := h.wellFormed.designated hb
  have hcomm := graceAmount_comm (F := secondaryRewardOf) h hA hB hka hkb
  have hb₁ : env₁.tasks.lookup j = some b := (lookup_tasks_after h hA ha hij.symm).trans hb
  have ha₂ : env₂.tasks.lookup i = some a := (lookup_tasks_after h hB hb hij).trans ha
  -- Two payments in either order.
  have hpaidA := (hA.paid h hc ha hdripA hnative).balance_eq hc token holder
  have hpaidAB := (hAB.paid (hA.staked h ha) hd hb₁ hdripB
    (hA.instance_eq.2.2.1.trans hnative)).balance_eq hd token holder
  have hpaidB := (hB.paid h hd hb hdripB hnative).balance_eq hd token holder
  have hpaidBA := (hBA.paid (hB.staked h hb) hc ha₂ hdripA
    (hB.instance_eq.2.2.1.trans hnative)).balance_eq hc token holder
  unfold costOf at hpaidA hpaidAB hpaidB hpaidBA
  simp only [graceReward_eq_graceAmount] at hpaidA hpaidAB hpaidB hpaidBA
  apply MachineInt.ext
  by_cases htoken : token = native
  · simp only [if_pos htoken] at hpaidA hpaidAB hpaidB hpaidBA
    by_cases hholder : holder ≠ c ∧ holder ≠ d
    · simp only [if_neg hholder.1, if_neg hholder.2] at hpaidA hpaidAB hpaidB hpaidBA
      split at hpaidA
      · rename_i hcontract
        simp only [if_pos hcontract] at hpaidAB hpaidB hpaidBA
        omega
      · rename_i hcontract
        simp only [if_neg hcontract] at hpaidAB hpaidB hpaidBA
        omega
    · by_cases hcd : c = d
      · subst hcd
        split at hpaidA
        · rename_i hholderc
          simp only [if_pos hholderc] at hpaidAB hpaidB hpaidBA
          omega
        · rename_i hholderc
          exact absurd ⟨hholderc, hholderc⟩ hholder
      · -- Without a shared slash each caller receives the same amount in either order.
        have hshare : ¬ ShareSlash env a b := by
          rcases hsame with hsame | hsame
          · exact absurd hsame hholder
          · exact fun hs => hsame ⟨hcd, hs⟩
        have hsameb := graceAmount_after_of_not_share (F := secondaryRewardOf) h hA hshare hkb
        by_cases hholderc : holder = c
        · subst hholderc
          simp only [if_true, if_neg hcd, if_neg hc] at hpaidA hpaidAB hpaidB hpaidBA
          omega
        · have hholderd : holder = d := by
            by_contra hne
            exact hholder ⟨hholderc, hne⟩
          subst hholderd
          simp only [if_true, if_neg hholderc, if_neg hd] at hpaidA hpaidAB hpaidB hpaidBA
          omega
  · simp only [if_neg htoken] at hpaidA hpaidAB hpaidB hpaidBA
    omega

/-! ## Executions of two tasks -/

/-- Executing in one order makes it possible to execute in the other, with the same accounts
afterwards. -/
theorem exchange (h : Staked env) (hij : i ≠ j) (hc : c ≠ host.currentContractAddress)
    (hd : d ≠ host.currentContractAddress)
    (hdripA : ∀ t, env.tasks.lookup i = some t → InertDrip host inv t.targetDripList)
    (hdripB : ∀ t, env.tasks.lookup j = some t → InertDrip host inv' t.targetDripList)
    (hfirst : Succeeds host .debug inv (.executeDripSplit i c) env)
    (hsecond : Succeeds host .debug inv' (.executeDripSplit j d)
      (step host .debug env (.call inv (.executeDripSplit i c)))) :
    (Succeeds host .debug inv' (.executeDripSplit j d) env ∧
      Succeeds host .debug inv (.executeDripSplit i c)
        (step host .debug env (.call inv' (.executeDripSplit j d)))) ∧
    ∃ a b env₁ env₂, env.tasks.lookup i = some a ∧ env.tasks.lookup j = some b ∧
      env₁ = step host .debug env (.call inv (.executeDripSplit i c)) ∧
      env₂ = step host .debug env (.call inv' (.executeDripSplit j d)) ∧
      Executes host .debug inv env i a c env₁ ∧ Executes host .debug inv' env j b d env₂ ∧
      Executes host .debug inv' env₁ j b d
        (step host .debug env₁ (.call inv' (.executeDripSplit j d))) ∧
      Executes host .debug inv env₂ i a c
        (step host .debug env₂ (.call inv (.executeDripSplit i c))) := by
  obtain ⟨a, ha, hauthA, hA⟩ := executes_of_succeeds hfirst
  obtain ⟨b, hb₁, hauthB, hAB⟩ := executes_of_succeeds hsecond
  have hstaked₁ := hA.staked h ha
  have hb : env.tasks.lookup j = some b :=
    (lookup_tasks_after h hA ha hij.symm).symm.trans hb₁
  have hinertA := hdripA a ha
  have hinertB := hdripB b hb
  have hexecA := executable_of_executes h hc hauthA ha hinertA hA
  have hexecAB := executable_of_executes hstaked₁ hd hauthB hb₁ hinertB hAB
  -- The second task could have gone first ...
  have hexecB := executable_first h hc ha hb hinertA hinertB hA hexecAB
  have hokB := succeeds_of_executable h hd hinertB hexecB
  obtain ⟨b', hb', -, hB⟩ := executes_of_succeeds hokB
  rw [hb] at hb'
  cases hb'
  -- ... and then the first one second.
  have hexecBA := executable_second h hij hc hd ha hb hinertA hinertB hexecA hA hB hexecAB
  have hokBA := succeeds_of_executable (hB.staked h hb) hc hinertA hexecBA
  obtain ⟨a', ha', -, hBA⟩ := executes_of_succeeds hokBA
  rw [hexecBA.stored] at ha'
  cases ha'
  exact ⟨⟨hokB, hokBA⟩, a, b, _, _, ha, hb, rfl, rfl, hA, hB, hAB, hBA⟩

/-- Two executions of different tasks in one ledger succeed in either order or in neither. Both
orders then lead to the same accounts, and every balance is the same unless it belongs to one of
two different callers who share a slash. -/
theorem executions_commute (host : Host Address TokenState) (inv inv' : Invocation Address TokenState)
    (env : Env Address TokenState) (i j : TaskId) (c d : Address)
    (hreach : Reachable host .debug env) (hmin : PositiveMinimum env) (hij : i ≠ j)
    (hc : c ≠ host.currentContractAddress) (hd : d ≠ host.currentContractAddress)
    (hdripA : ∀ t, env.tasks.lookup i = some t → InertDrip host inv t.targetDripList)
    (hdripB : ∀ t, env.tasks.lookup j = some t → InertDrip host inv' t.targetDripList) :
    let first := Call.executeDripSplit i c
    let second := Call.executeDripSplit j d
    let env₁ := step host .debug env (.call inv first)
    let env₂ := step host .debug env (.call inv' second)
    let env₁₂ := step host .debug env₁ (.call inv' second)
    let env₂₁ := step host .debug env₂ (.call inv first)
    (Succeeds host .debug inv first env ∧ Succeeds host .debug inv' second env₁ ↔
      Succeeds host .debug inv' second env ∧ Succeeds host .debug inv first env₂) ∧
    (Succeeds host .debug inv first env ∧ Succeeds host .debug inv' second env₁ →
      SameAccounts host env₁₂ env₂₁ ∧
      ∀ a b, env.tasks.lookup i = some a → env.tasks.lookup j = some b →
        ∀ token holder, ((holder ≠ c ∧ holder ≠ d) ∨ ¬ (c ≠ d ∧ ShareSlash env a b)) →
          host.token.balance env₁₂.tokens token holder =
            host.token.balance env₂₁.tokens token holder) := by
  intro first second env₁ env₂ env₁₂ env₂₁
  have h : Staked env := ⟨hreach.wellFormed, hreach.kept kept_pos hmin⟩
  constructor
  · constructor
    · rintro ⟨hfirst, hsecond⟩
      exact (exchange h hij hc hd hdripA hdripB hfirst hsecond).1
    · rintro ⟨hsecond, hfirst⟩
      exact (exchange h hij.symm hd hc hdripB hdripA hsecond hfirst).1
  · rintro ⟨hfirst, hsecond⟩
    obtain ⟨-, a, b, s₁, s₂, ha, hb, rfl, rfl, hA, hB, hAB, hBA⟩ :=
      exchange h hij hc hd hdripA hdripB hfirst hsecond
    have hbalances : ∀ token holder,
        ((holder ≠ c ∧ holder ≠ d) ∨ ¬ (c ≠ d ∧ ShareSlash env a b)) →
          host.token.balance env₁₂.tokens token holder =
            host.token.balance env₂₁.tokens token holder :=
      balances_comm h hij hc hd ha hb (hdripA a ha) (hdripB b hb) hA hB hAB hBA
    refine ⟨⟨keepers_comm h ha hb hA hB hAB hBA, tasks_comm h hij ha hb hA hB hAB hBA,
      treasuryBalance_comm h ha hb hA hB hAB hBA, ?_⟩, ?_⟩
    · intro token
      exact congrArg MachineInt.val (hbalances token _ (Or.inl ⟨hc.symm, hd.symm⟩))
    · intro a' b' ha' hb'
      rw [ha] at ha'
      rw [hb] at hb'
      cases ha'
      cases hb'
      exact hbalances

/-- Two tasks of one designated keeper, both in their grace periods, executed by two others. -/
theorem executions_commute_sample :
    let env := run (step sampleHost .debug) (deployed (sampleTokens 1000) 0)
      [.call sampleInvocation (.initializeContract 2 1 1),
        .call sampleInvocation (.registerKeeper 3 4000),
        .call sampleInvocation (.registerKeeper 4 500),
        .call sampleInvocation (.registerKeeper 5 500),
        .call sampleInvocation (.provisionTask 6 10 30 3),
        .call sampleInvocation (.provisionTask 7 10 30 3), .closeLedger 11]
    let first := Call.executeDripSplit (sampleSha256 (taskSeed 0 0)) 4
    let second := Call.executeDripSplit (sampleSha256 (taskSeed 1 0)) 5
    let env₁ := step sampleHost .debug env (.call sampleInvocation first)
    let env₂ := step sampleHost .debug env (.call sampleInvocation second)
    SameAccounts sampleHost (step sampleHost .debug env₁ (.call sampleInvocation second))
      (step sampleHost .debug env₂ (.call sampleInvocation first)) := by
  intro env first second env₁ env₂
  have hinert : ∀ target, InertDrip sampleHost sampleInvocation target := by
    intro target
    refine ⟨fun _ _ => rfl, ?_⟩
    intro st st' hst token holder
    cases hst
    rfl
  have hcommute := executions_commute sampleHost sampleInvocation sampleInvocation env
    (sampleSha256 (taskSeed 0 0)) (sampleSha256 (taskSeed 1 0)) 4 5 ⟨_, _, _, rfl⟩
    (by decide +kernel) (by decide +kernel) (by decide) (by decide) (fun _ _ => hinert _)
    (fun _ _ => hinert _)
  exact (hcommute.2 ⟨by decide +kernel, by decide +kernel⟩).1

end ChronosKeeper.Anchor
