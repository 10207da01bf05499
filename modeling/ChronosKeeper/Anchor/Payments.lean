import ChronosKeeper.Anchor.Accounting

/-!
# Announced payments

The contract pays micro rewards and secondary rewards in its native token, and every execution
publishes what it pays. Over a run the two agree for every token and every holder
(`payments_announced`): a balance has changed by what others have moved, which is what transfers
and the called drip lists do, and by the payments that the events announce. So the events account
for every unit that the contract has spent, in either build profile.

A reward paid to the contract itself is a transfer to itself, and a secondary reward that is not
positive is not paid at all.
-/

set_option autoImplicit false

namespace ChronosKeeper.Anchor

open ChronosKeeper.Foundations

variable {Address TokenState : Type} [DecidableEq Address]

omit [DecidableEq Address] in
/-- The payment an event announces: who is paid, and how much. -/
def Event.payment : Event Address → Option (Address × Int)
  | .taskExec _ keeper _ reward => some (keeper, reward.val)
  | .taskSec _ secondaryKeeper _ _ _ secondaryReward microReward =>
      some (secondaryKeeper, microReward.val + max secondaryReward.val 0)
  | _ => none

/-- What a payment of the contract changes in the balance of a holder. -/
def paymentTo (host : Host Address TokenState) (holder : Address) (payment : Address × Int) : Int :=
  if payment.1 = host.currentContractAddress then 0
  else if holder = payment.1 then payment.2
  else if holder = host.currentContractAddress then -payment.2
  else 0

/-- What the announced payments change in the balance of a holder. -/
def announcedPayments (host : Host Address TokenState) (env : Env Address TokenState)
    (token holder : Address) : Int :=
  if env.nativeToken = some token then
    ((env.events.filterMap Event.payment).map (paymentTo host holder)).sum
  else 0

/-- What an action changes in the balance of a holder other than by payments of the contract: a
transfer, or what the drip list called by a successful execution does. -/
def movedByOthers (host : Host Address TokenState) (p : Profile) (token holder : Address)
    (env : Env Address TokenState) : Action Address TokenState → Int
  | .transfer token' src dst amount =>
      (host.token.balance (step host p env (.transfer token' src dst amount)).tokens token
        holder).val - (host.token.balance env.tokens token holder).val
  | .call inv (.executeDripSplit taskId caller) =>
      if Succeeds host p inv (.executeDripSplit taskId caller) env then
        match (env.tasks.lookup taskId).bind fun task =>
            inv.distributeWaveSplits task.targetDripList env.tokens with
        | some tokens =>
            (host.token.balance tokens token holder).val -
              (host.token.balance env.tokens token holder).val
        | none => 0
      else 0
  | _ => 0

variable {host : Host Address TokenState} {p : Profile} {inv : Invocation Address TokenState}
  {env env' : Env Address TokenState} {taskId : TaskId} {task : ExecutionTask Address}
  {caller : Address}

/-! ## One payment -/

variable (host) in
theorem paymentTo_add (holder recipient : Address) (amount amount' : Int) :
    paymentTo host holder (recipient, amount) + paymentTo host holder (recipient, amount') =
      paymentTo host holder (recipient, amount + amount') := by
  unfold paymentTo
  split_ifs <;> omega

theorem paymentTo_zero (holder recipient : Address) :
    paymentTo host holder (recipient, 0) = 0 := by
  unfold paymentTo
  split_ifs <;> rfl

/-- A payment changes the balances by exactly what `paymentTo` says. -/
theorem balance_of_isPayment {native recipient : Address} {st st' : TokenState} {amount : I128}
    (h : IsPayment host native st recipient amount st') (token holder : Address) :
    (host.token.balance st' token holder).val = (host.token.balance st token holder).val +
      if native = token then paymentTo host holder (recipient, amount.val) else 0 := by
  have hframe := host.token.transfer_frame h.transfer token holder
  by_cases htoken : native = token
  · subst htoken
    rw [if_pos rfl]
    by_cases hself : recipient = host.currentContractAddress
    · -- The contract pays itself.
      have htransfer := h.transfer
      rw [hself] at htransfer
      have hunchanged : host.token.balance st' native holder =
          host.token.balance st native holder := by
        by_cases hholder : holder = host.currentContractAddress
        · rw [hholder]
          exact host.token.transfer_self htransfer
        · apply hframe
          rintro ⟨-, heq | heq⟩
          · exact hholder heq
          · exact hholder (heq.trans hself)
      rw [hunchanged, paymentTo, if_pos hself, add_zero]
    · rw [paymentTo, if_neg hself]
      by_cases hrecipient : holder = recipient
      · rw [if_pos hrecipient, hrecipient]
        exact host.token.transfer_dst h.transfer (Ne.symm hself)
      · rw [if_neg hrecipient]
        by_cases hholder : holder = host.currentContractAddress
        · rw [if_pos hholder, hholder, host.token.transfer_src h.transfer (Ne.symm hself)]
          omega
        · rw [if_neg hholder, add_zero, hframe]
          rintro ⟨-, heq | heq⟩
          · exact hholder heq
          · exact hrecipient heq
  · rw [if_neg htoken, add_zero, hframe]
    rintro ⟨heq, -⟩
    exact htoken heq.symm

theorem balance_of_isSecondaryPayment {native recipient : Address} {st st' : TokenState}
    {reward : I128} (h : IsSecondaryPayment host native st recipient reward st')
    (token holder : Address) :
    (host.token.balance st' token holder).val = (host.token.balance st token holder).val +
      if native = token then paymentTo host holder (recipient, max reward.val 0) else 0 := by
  unfold IsSecondaryPayment at h
  split at h
  · rename_i hpos
    rw [balance_of_isPayment h, max_eq_left hpos.le]
  · rename_i hnot
    rw [h, max_eq_right (not_lt.1 hnot), paymentTo_zero, ite_self, add_zero]

/-! ## One step -/

/-- An execution pays, on top of what the drip list has done, exactly what its event announces. -/
theorem Executes.payment (hexec : Executes host p inv env taskId task caller env') :
    ∃ native drip amount published, env.nativeToken = some native ∧
      inv.distributeWaveSplits task.targetDripList env.tokens = some drip ∧
      env'.events = env.events ++ published ∧
      published.filterMap Event.payment = [(caller, amount)] ∧
      ∀ token holder, (host.token.balance env'.tokens token holder).val =
        (host.token.balance drip token holder).val +
          if native = token then paymentTo host holder (caller, amount) else 0 := by
  cases hexec with
  | designated d _ _ hd =>
      exact ⟨d.token, d.dripTokens, _, _, hd.token, hd.drip, rfl, rfl,
        balance_of_isPayment hd.payment⟩
  | postGrace elapsed d _ _ _ hd =>
      exact ⟨d.token, d.dripTokens, _,
        [.missed taskId elapsed, .taskExec task.taskId caller env.ledgerSequence
          task.microRewardPerRun], hd.token, hd.drip, List.append_assoc _ _ _, rfl,
        balance_of_isPayment hd.payment⟩
  | grace k a t d st _ _ _ _ _ _ _ _ hd hpay =>
      refine ⟨d.token, d.dripTokens, _,
        [.slashed task.designatedKeeper a.slashAmount a.newStake,
          .taskSec taskId caller task.designatedKeeper env.ledgerSequence a.slashAmount
            a.secondaryReward task.microRewardPerRun], hd.token, hd.drip, ?_, rfl, ?_⟩
      · simp only [secondaryPaid, distributed, slashed, if_true, List.append_nil,
          List.append_assoc, List.singleton_append]
      · -- The micro reward first, then the secondary reward.
        intro token holder
        have hmicro := balance_of_isPayment hd.payment token holder
        have hsecond := balance_of_isSecondaryPayment hpay token holder
        have hadd := paymentTo_add host holder caller task.microRewardPerRun.val
          (max a.secondaryReward.val 0)
        show (host.token.balance st token holder).val = _
        split_ifs at hmicro hsecond ⊢ <;> omega

/-- Before the initialisation nothing is paid. -/
structure Unpaid (env : Env Address TokenState) : Prop where
  wellFormed : WellFormed env
  payments : env.nativeToken = none → env.events.filterMap Event.payment = []

/-- The announced payments after a step that announces none. -/
theorem announcedPayments_congr (hnative : env'.nativeToken = env.nativeToken)
    (hpayments : env'.events.filterMap Event.payment = env.events.filterMap Event.payment)
    (token holder : Address) :
    announcedPayments host env' token holder = announcedPayments host env token holder := by
  unfold announcedPayments
  rw [hnative, hpayments]

variable (host) in
/-- The announced payments after an execution. -/
theorem announcedPayments_executed {native : Address} {amount : Int}
    {published : List (Event Address)} (htoken : env.nativeToken = some native)
    (hsame : env'.nativeToken = env.nativeToken) (hevents : env'.events = env.events ++ published)
    (hpublished : published.filterMap Event.payment = [(caller, amount)])
    (token holder : Address) :
    announcedPayments host env' token holder = announcedPayments host env token holder +
      if native = token then paymentTo host holder (caller, amount) else 0 := by
  unfold announcedPayments
  rw [hsame, htoken, hevents, List.filterMap_append, hpublished, List.map_append, List.sum_append]
  by_cases hnative : native = token
  · rw [if_pos (congrArg some hnative), if_pos (congrArg some hnative), if_pos hnative]
    simp only [List.map_cons, List.map_nil, List.sum_cons, List.sum_nil, add_zero]
  · have hne : ¬ some native = some token := fun heq => hnative (Option.some.inj heq)
    rw [if_neg hne, if_neg hne, if_neg hnative, add_zero]

/-- Nothing is moved by an action that leaves the environment alone. -/
theorem movedByOthers_of_idle {action : Action Address TokenState}
    (hidle : ∀ inv c, action = .call inv c → ¬ Succeeds host p inv c env ∨ c.readOnly = true)
    (hsame : step host p env action = env) (token holder : Address) :
    movedByOthers host p token holder env action = 0 := by
  unfold movedByOthers
  split
  · rw [hsame, sub_self]
  · rename_i inv taskId caller
    rcases hidle _ _ rfl with hfail | hread
    · exact if_neg hfail
    · cases hread
  · rfl

theorem movedByOthers_of_executes {drip : TokenState}
    (hok : Succeeds host p inv (.executeDripSplit taskId caller) env)
    (htask : env.tasks.lookup taskId = some task)
    (hdrip : inv.distributeWaveSplits task.targetDripList env.tokens = some drip)
    (token holder : Address) :
    movedByOthers host p token holder env (.call inv (.executeDripSplit taskId caller)) =
      (host.token.balance drip token holder).val -
        (host.token.balance env.tokens token holder).val := by
  simp only [movedByOthers, if_pos hok, htask, Option.bind_some, hdrip]

/-- The part of a balance that no announced payment accounts for. -/
def unannounced (host : Host Address TokenState) (token holder : Address)
    (env : Env Address TokenState) : Int :=
  (host.token.balance env.tokens token holder).val - announcedPayments host env token holder

/-- Only others change the part of a balance that is not announced. -/
theorem unannounced_step (h : Unpaid env) (action : Action Address TokenState)
    (token holder : Address) :
    Unpaid (step host p env action) ∧
      unannounced host token holder (step host p env action) =
        unannounced host token holder env + movedByOthers host p token holder env action := by
  have hstep : WellFormed (step host p env action) := h.wellFormed.step action
  have heffect := step_effect host p env action
  generalize henv : step host p env action = env' at heffect hstep ⊢
  -- A step that neither pays nor moves anything.
  have hquiet : ∀ env' : Env Address TokenState, WellFormed env' →
      env'.nativeToken = env.nativeToken → env'.tokens = env.tokens →
      env'.events.filterMap Event.payment = env.events.filterMap Event.payment →
      Unpaid env' ∧ unannounced host token holder env' = unannounced host token holder env + 0 := by
    intro env' hW hnative htokens hpayments
    refine ⟨⟨hW, ?_⟩, ?_⟩
    · rw [hnative, hpayments]
      exact h.payments
    · unfold unannounced
      rw [htokens, announcedPayments_congr hnative hpayments, add_zero]
  cases heffect with
  | idle action hidle =>
      rw [movedByOthers_of_idle hidle henv]
      exact hquiet env hstep rfl rfl rfl
  | registered inv keeper stakeAmount =>
      refine hquiet _ hstep rfl rfl ?_
      exact List.filterMap_append.trans (List.append_nil _)
  | provisioned inv nextCounter task =>
      refine hquiet _ hstep rfl rfl ?_
      exact List.filterMap_append.trans (List.append_nil _)
  | closed sequence => exact hquiet _ hstep rfl rfl rfl
  | initialized inv admin nativeToken minKeeperStake _ hadmin =>
      -- The token is chosen before anything is paid.
      have hnone := h.payments (h.wellFormed.nativeToken_iff.2 hadmin)
      refine ⟨⟨hstep, fun _ => hnone⟩, ?_⟩
      have hzero : ∀ env' : Env Address TokenState, env'.events = env.events →
          announcedPayments host env' token holder = 0 := by
        intro env' hevents
        unfold announcedPayments
        rw [hevents, hnone]
        exact ite_self 0
      unfold unannounced
      rw [hzero env rfl, hzero (initialized env admin nativeToken minKeeperStake) rfl]
      exact (add_zero _).symm
  | transferred token' src dst amount tokens =>
      refine ⟨⟨hstep, h.payments⟩, ?_⟩
      have hmoved : movedByOthers host p token holder env (.transfer token' src dst amount) =
          (host.token.balance tokens token holder).val -
            (host.token.balance env.tokens token holder).val := by
        simp only [movedByOthers, henv]
      have hsame : announcedPayments host { env with tokens } token holder =
          announcedPayments host env token holder := rfl
      rw [hmoved, unannounced, unannounced, hsame]
      show (host.token.balance tokens token holder).val - _ = _
      omega
  | executed inv taskId caller task env' hok htask _ hexec =>
      obtain ⟨native, drip, amount, published, htoken, hdrip, hevents, hpublished, hbalance⟩ :=
        hexec.payment
      have hnative := hexec.instance_eq.2.2.1
      have hannounced := announcedPayments_executed host htoken hnative hevents hpublished token
        holder
      refine ⟨⟨hstep, ?_⟩, ?_⟩
      · intro hnone
        rw [hnative, htoken] at hnone
        cases hnone
      · rw [movedByOthers_of_executes hok htask hdrip, unannounced, unannounced, hannounced,
          hbalance token holder]
        omega

/-! ## Runs -/

/-- A run changes a balance by what others move and by what the events announce. -/
theorem balance_run (host : Host Address TokenState) (p : Profile) (tokens : TokenState)
    (ledgerSequence : U32) (actions : List (Action Address TokenState)) (token holder : Address) :
    (host.token.balance (run (step host p) (deployed tokens ledgerSequence) actions).tokens token
        holder).val =
      (host.token.balance tokens token holder).val +
        traceSum (step host p) (movedByOthers host p token holder)
          (deployed tokens ledgerSequence) actions +
        announcedPayments host (run (step host p) (deployed tokens ledgerSequence) actions) token
          holder := by
  have hstart : Unpaid (deployed tokens ledgerSequence : Env Address TokenState) :=
    ⟨wellFormed_deployed tokens ledgerSequence, fun _ => rfl⟩
  have hrun : unannounced host token holder
      (run (step host p) (deployed tokens ledgerSequence) actions) =
        unannounced host token holder (deployed tokens ledgerSequence) +
          traceSum (step host p) (movedByOthers host p token holder)
            (deployed tokens ledgerSequence) actions :=
    run_eq_add_traceSum hstart (fun _ action h => (unannounced_step h action token holder).1)
      (fun _ action h => (unannounced_step h action token holder).2) actions
  have hfirst : unannounced host token holder (deployed tokens ledgerSequence) =
      (host.token.balance tokens token holder).val := sub_zero _
  rw [hfirst] at hrun
  unfold unannounced at hrun
  omega

/-- The sum of the amounts of the payments whose recipient satisfies `q`. -/
def paidTo (q : Address → Prop) [DecidablePred q] (payments : List (Address × Int)) : Int :=
  ((payments.filter fun payment => q payment.1).map Prod.snd).sum

omit [DecidableEq Address] in
theorem paidTo_cons (q : Address → Prop) [DecidablePred q] (payment : Address × Int)
    (payments : List (Address × Int)) :
    paidTo q (payment :: payments) =
      (if q payment.1 then payment.2 else 0) + paidTo q payments := by
  unfold paidTo
  by_cases hq : q payment.1
  · rw [List.filter_cons_of_pos (by simpa using hq), List.map_cons, List.sum_cons, if_pos hq]
  · rw [List.filter_cons_of_neg (by simpa using hq), if_neg hq, zero_add]

/-- A holder other than the contract gains what it is paid. -/
theorem sum_paymentTo_of_ne {holder : Address} (hne : holder ≠ host.currentContractAddress)
    (payments : List (Address × Int)) :
    (payments.map (paymentTo host holder)).sum = paidTo (fun a => a = holder) payments := by
  induction payments with
  | nil => rfl
  | cons payment payments ih =>
      rw [List.map_cons, List.sum_cons, paidTo_cons, ih]
      congr 1
      unfold paymentTo
      by_cases hself : payment.1 = host.currentContractAddress
      · have hother : ¬ payment.1 = holder := fun heq => hne (heq.symm.trans hself)
        rw [if_pos hself, if_neg hother]
      · rw [if_neg hself, if_neg hne]
        exact if_congr eq_comm rfl rfl

/-- The contract loses what it pays to others. -/
theorem sum_paymentTo_contract (payments : List (Address × Int)) :
    (payments.map (paymentTo host host.currentContractAddress)).sum =
      -paidTo (fun a => a ≠ host.currentContractAddress) payments := by
  induction payments with
  | nil => rfl
  | cons payment payments ih =>
      rw [List.map_cons, List.sum_cons, paidTo_cons, ih]
      unfold paymentTo
      by_cases hself : payment.1 = host.currentContractAddress
      · rw [if_pos hself, if_neg (not_not.2 hself)]
        omega
      · rw [if_neg hself, if_neg (Ne.symm hself), if_pos rfl, if_pos hself]
        omega

/-- Over every run, the balance of each holder in the native token changes by what others move and
by the payments that the events announce to it, and that of the contract by what others move and
the payments announced to others. In any other token only others move anything. -/
theorem payments_announced (host : Host Address TokenState) (p : Profile) (tokens : TokenState)
    (ledgerSequence : U32) (actions : List (Action Address TokenState)) (token : Address) :
    let start := deployed tokens ledgerSequence
    let final := run (step host p) start actions
    let payments := final.events.filterMap Event.payment
    let before := fun holder => (host.token.balance tokens token holder).val
    let after := fun holder => (host.token.balance final.tokens token holder).val
    let moved := fun holder => traceSum (step host p) (movedByOthers host p token holder) start actions
    if final.nativeToken = some token then
      (∀ holder, holder ≠ host.currentContractAddress →
        after holder = before holder + moved holder + paidTo (fun a => a = holder) payments) ∧
      after host.currentContractAddress = before host.currentContractAddress +
        moved host.currentContractAddress -
          paidTo (fun a => a ≠ host.currentContractAddress) payments
    else ∀ holder, after holder = before holder + moved holder := by
  intro start final payments before after moved
  have hrun : ∀ holder, after holder =
      before holder + moved holder + announcedPayments host final token holder :=
    balance_run host p tokens ledgerSequence actions token
  split
  · rename_i hnative
    have hannounced : ∀ holder, announcedPayments host final token holder =
        (payments.map (paymentTo host holder)).sum := fun holder => if_pos hnative
    constructor
    · intro holder hne
      rw [hrun, hannounced, sum_paymentTo_of_ne hne]
    · rw [hrun, hannounced, sum_paymentTo_contract]
      omega
  · rename_i hother
    intro holder
    have hnothing : announcedPayments host final token holder = 0 := if_neg hother
    rw [hrun, hnothing, add_zero]

end ChronosKeeper.Anchor
