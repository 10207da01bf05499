import ChronosKeeper.Anchor.Payments
import ChronosKeeper.Anchor.Eligibility

/-!
# Nothing without authority

Everything the contract has on record goes back to a successful call of the run that the party
concerned has authorised (`everything_is_authorised`): the configuration to the admin's, a keeper
to its own registration, a task to a provisioning by the admin, and a payment to an execution by
the one who is paid. An address that authorises no call is nobody's keeper and is paid nothing, so
its balances change only by what others move.

Each part asks which step has brought a fact about (`exists_cause`) and reads the authority off the
checks of that step.
-/

set_option autoImplicit false

namespace ChronosKeeper.Anchor

open ChronosKeeper.Foundations

variable {Address TokenState : Type} [DecidableEq Address]

/-- The action is a successful call that the address has authorised. -/
def Grants (host : Host Address TokenState) (p : Profile) (a : Address) (c : Call Address)
    (env : Env Address TokenState) (action : Action Address TokenState) : Prop :=
  ∃ inv, action = .call inv c ∧ Succeeds host p inv c env ∧ inv.authorized a = true

/-- The call succeeds in the run, with the authority of the address. -/
def Granted (host : Host Address TokenState) (p : Profile) (start : Env Address TokenState)
    (actions : List (Action Address TokenState)) (a : Address) (c : Call Address) : Prop :=
  ∃ r ∈ trace (step host p) start actions, Grants host p a c r.1 r.2

/-- Whom an action pays: the caller of a successful execution. -/
def payees (host : Host Address TokenState) (p : Profile) (env : Env Address TokenState) :
    Action Address TokenState → List Address
  | .call inv (.executeDripSplit taskId caller) =>
      if Succeeds host p inv (.executeDripSplit taskId caller) env then [caller] else []
  | _ => []

/-- Whom the events announce payments to, in order. -/
def announcedPayees (env : Env Address TokenState) : List Address :=
  (env.events.filterMap Event.payment).map Prod.fst

/-- The contract is initialised with these values. -/
def ConfiguredBy (a nativeToken : Address) (minKeeperStake : I128)
    (env : Env Address TokenState) : Prop :=
  env.admin = some a ∧ env.nativeToken = some nativeToken ∧
    env.minKeeperStake = some minKeeperStake

/-- A task is stored under the identifier that was provisioned with the same arguments. -/
def ProvisionedAs (id : TaskId) (task : ExecutionTask Address) (env : Env Address TokenState) :
    Prop :=
  ∃ t, env.tasks.lookup id = some t ∧ t.targetDripList = task.targetDripList ∧
    t.executionIntervalLedgers = task.executionIntervalLedgers ∧
    t.microRewardPerRun = task.microRewardPerRun ∧ t.designatedKeeper = task.designatedKeeper

variable {host : Host Address TokenState} {p : Profile} {env env' : Env Address TokenState}
  {action : Action Address TokenState} {a : Address}

/-! ## The step that is the cause -/

theorem grants_initialize {nativeToken : Address} {minKeeperStake : I128}
    (hbefore : ¬ ConfiguredBy a nativeToken minKeeperStake env)
    (hafter : ConfiguredBy a nativeToken minKeeperStake (step host p env action)) :
    Grants host p a (.initializeContract a nativeToken minKeeperStake) env action := by
  have heffect := step_effect host p env action
  generalize step host p env action = env' at heffect hafter
  cases heffect with
  | initialized inv admin token stake hok _ hauth =>
      obtain ⟨hadmin, htoken, hstake⟩ := hafter
      cases hadmin
      cases htoken
      cases hstake
      exact ⟨inv, rfl, hok, hauth⟩
  | executed inv taskId caller task env' _ _ _ hexec =>
      obtain ⟨-, hadmin, htoken, hstake, -⟩ := hexec.instance_eq
      rw [ConfiguredBy, hadmin, htoken, hstake] at hafter
      exact absurd hafter hbefore
  | idle => exact absurd hafter hbefore
  | registered => exact absurd hafter hbefore
  | provisioned => exact absurd hafter hbefore
  | closed => exact absurd hafter hbefore
  | transferred => exact absurd hafter hbefore

theorem grants_register (h : WellFormed env) (hbefore : ¬ ∃ k, env.keepers.lookup a = some k)
    (hafter : ∃ k, (step host p env action).keepers.lookup a = some k) :
    ∃ stakeAmount, Grants host p a (.registerKeeper a stakeAmount) env action := by
  obtain ⟨k, hk⟩ := hafter
  rcases registered_of_lookup_step h hk with hregistered | hregistration
  · exact absurd hregistered hbefore
  · obtain ⟨inv, stakeAmount, rfl, hok⟩ := isRegistration_iff.1 hregistration
    obtain ⟨v, hv⟩ := invoke_of_succeeds hok
    exact ⟨stakeAmount, inv, rfl, hok, (invoke_registerKeeper_eq_ok.1 hv).2.1⟩

theorem grants_provision (h : WellFormed env) {id : TaskId} {task : ExecutionTask Address}
    (hbefore : ¬ ProvisionedAs id task env)
    (hafter : ProvisionedAs id task (step host p env action)) :
    ∃ admin, env.admin = some admin ∧ Grants host p admin (.provisionTask task.targetDripList
      task.executionIntervalLedgers task.microRewardPerRun task.designatedKeeper) env action := by
  have heffect := step_effect host p env action
  generalize step host p env action = env' at heffect hafter
  cases heffect with
  | provisioned inv nextCounter new hok htask =>
      obtain ⟨admin, hadmin, hauth⟩ := htask.admin
      obtain ⟨t, ht, hsame⟩ := hafter
      rw [lookup_tasks_provisioned] at ht
      split at ht
      · cases ht
        obtain ⟨hlist, hinterval, hreward, hkeeper⟩ := hsame
        rw [hlist, hinterval, hreward, hkeeper] at hok ⊢
        exact ⟨admin, hadmin, inv, rfl, hok, hauth⟩
      · exact absurd ⟨t, ht, hsame⟩ hbefore
  | executed inv taskId caller old env' _ hold _ hexec =>
      -- an execution moves the schedule and keeps the arguments
      obtain ⟨next, -, hlookup⟩ := hexec.lookup_tasks h hold
      obtain ⟨t, ht, hsame⟩ := hafter
      rw [hlookup] at ht
      split at ht
      · rename_i hid
        cases ht
        exact absurd ⟨old, hid ▸ hold, hsame⟩ hbefore
      · exact absurd ⟨t, ht, hsame⟩ hbefore
  | idle => exact absurd hafter hbefore
  | initialized => exact absurd hafter hbefore
  | registered => exact absurd hafter hbefore
  | closed => exact absurd hafter hbefore
  | transferred => exact absurd hafter hbefore

/-- Those who are paid by the events that a step publishes. -/
theorem payees_step (host : Host Address TokenState) (p : Profile) (env : Env Address TokenState)
    (action : Action Address TokenState) :
    announcedPayees (step host p env action) =
      announcedPayees env ++ payees host p env action := by
  unfold announcedPayees
  have heffect := step_effect host p env action
  generalize henv : step host p env action = env' at heffect
  cases heffect with
  | executed inv taskId caller task env' hok htask _ hexec =>
      obtain ⟨-, -, amount, published, -, -, hevents, hpublished, -⟩ := hexec.payment
      have hpayees : payees host p env (.call inv (.executeDripSplit taskId caller)) = [caller] :=
        if_pos hok
      rw [hpayees, hevents, List.filterMap_append, hpublished, List.map_append]
      rfl
  | idle action hidle =>
      have hnobody : payees host p env action = [] := by
        unfold payees
        split
        · rcases hidle _ _ rfl with hfail | hread
          · exact if_neg hfail
          · cases hread
        · rfl
      rw [hnobody, List.append_nil]
  | registered =>
      show List.map _ (List.filterMap _ (_ ++ _)) = _ ++ []
      rw [List.filterMap_append, List.append_nil]
      exact congrArg _ (List.append_nil _)
  | provisioned =>
      show List.map _ (List.filterMap _ (_ ++ _)) = _ ++ []
      rw [List.filterMap_append, List.append_nil]
      exact congrArg _ (List.append_nil _)
  | initialized => exact (List.append_nil _).symm
  | closed => exact (List.append_nil _).symm
  | transferred => exact (List.append_nil _).symm

theorem grants_of_mem_payees (h : a ∈ payees host p env action) :
    ∃ taskId, Grants host p a (.executeDripSplit taskId a) env action := by
  unfold payees at h
  split at h
  · rename_i inv taskId caller
    split at h
    · rename_i hok
      obtain rfl := List.mem_singleton.1 h
      obtain ⟨task, -, hauth, -⟩ := executes_of_succeeds hok
      exact ⟨taskId, inv, rfl, hok, hauth⟩
    · cases h
  · cases h

/-! ## Runs -/

/-- Every record and every payment goes back to a call of the run that was authorised. -/
structure Authorised (host : Host Address TokenState) (p : Profile) (start : Env Address TokenState)
    (actions : List (Action Address TokenState)) : Prop where
  configuration : ∀ a, (run (step host p) start actions).admin = some a →
    ∃ nativeToken minKeeperStake,
      ConfiguredBy a nativeToken minKeeperStake (run (step host p) start actions) ∧
        Granted host p start actions a (.initializeContract a nativeToken minKeeperStake)
  keepers : ∀ a k, (run (step host p) start actions).keepers.lookup a = some k →
    ∃ stakeAmount, Granted host p start actions a (.registerKeeper a stakeAmount)
  tasks : ∀ id task, (run (step host p) start actions).tasks.lookup id = some task →
    ∃ admin, (run (step host p) start actions).admin = some admin ∧
      Granted host p start actions admin (.provisionTask task.targetDripList
        task.executionIntervalLedgers task.microRewardPerRun task.designatedKeeper)
  /-- There is one payment for each successful execution, to its caller, in the order of the run. -/
  payees : announcedPayees (run (step host p) start actions) =
    emissions (step host p) (payees host p) start actions
  paid : ∀ a amount,
    (a, amount) ∈ (run (step host p) start actions).events.filterMap Event.payment →
      ∃ taskId, Granted host p start actions a (.executeDripSplit taskId a)
  /-- The balances of an address that authorises nothing change by what others move. -/
  stranger : ∀ a, a ≠ host.currentContractAddress → (∀ c, ¬ Granted host p start actions a c) →
    ∀ token, (host.token.balance (run (step host p) start actions).tokens token a).val =
      (host.token.balance start.tokens token a).val +
        traceSum (step host p) (movedByOthers host p token a) start actions

section Runs

variable {tokens : TokenState} {ledgerSequence : U32}
  {actions : List (Action Address TokenState)}

theorem granted_configuration
    (h : (run (step host p) (deployed tokens ledgerSequence) actions).admin = some a) :
    ∃ nativeToken minKeeperStake, ConfiguredBy a nativeToken minKeeperStake
        (run (step host p) (deployed tokens ledgerSequence) actions) ∧
      Granted host p (deployed tokens ledgerSequence) actions a
        (.initializeContract a nativeToken minKeeperStake) := by
  have hW := wellFormed_run host p tokens ledgerSequence actions
  have hset : ∀ {α : Type} {o : Option α}, (o = none ↔
      (run (step host p) (deployed tokens ledgerSequence) actions).admin = none) →
      ∃ x, o = some x := by
    intro α o hiff
    apply Option.ne_none_iff_exists'.1
    intro hnone
    cases h.symm.trans (hiff.1 hnone)
  obtain ⟨nativeToken, htoken⟩ := hset hW.nativeToken_iff
  obtain ⟨minKeeperStake, hstake⟩ := hset hW.minKeeperStake_iff
  obtain ⟨env, action, hmem, hbefore, hafter⟩ := exists_cause
    (P := ConfiguredBy a nativeToken minKeeperStake) (fun ⟨hadmin, _⟩ => nomatch hadmin)
    ⟨h, htoken, hstake⟩
  exact ⟨nativeToken, minKeeperStake, ⟨h, htoken, hstake⟩, _, hmem,
    grants_initialize hbefore hafter⟩

/-- The states of a trace are well-formed. -/
theorem wellFormed_of_mem_trace
    (hmem : (env, action) ∈ trace (step host p) (deployed tokens ledgerSequence) actions) :
    WellFormed env := by
  obtain ⟨pre, post, -, rfl⟩ := mem_trace_iff.1 hmem
  exact wellFormed_run host p tokens ledgerSequence pre

theorem granted_registration {k : Keeper Address}
    (h : (run (step host p) (deployed tokens ledgerSequence) actions).keepers.lookup a = some k) :
    ∃ stakeAmount, Granted host p (deployed tokens ledgerSequence) actions a
      (.registerKeeper a stakeAmount) := by
  obtain ⟨env, action, hmem, hbefore, hafter⟩ := exists_cause
    (P := fun env : Env Address TokenState => ∃ k, env.keepers.lookup a = some k)
    (fun ⟨k, hk⟩ => nomatch hk) ⟨k, h⟩
  obtain ⟨stakeAmount, hgrants⟩ :=
    grants_register (wellFormed_of_mem_trace hmem) hbefore hafter
  exact ⟨stakeAmount, _, hmem, hgrants⟩

/-- The admin of a state is the one of every later state. -/
theorem admin_run (h : env.admin = some a) (actions : List (Action Address TokenState)) :
    (run (step host p) env actions).admin = some a := by
  refine run_induction (P := fun env : Env Address TokenState => env.admin = some a) h
    (fun env action hadmin => ?_) actions
  have hset : env.admin ≠ none := by
    rw [hadmin]
    exact Option.some_ne_none a
  exact (instance_persists hset action).1.trans hadmin

theorem granted_provisioning {id : TaskId} {task : ExecutionTask Address}
    (h : (run (step host p) (deployed tokens ledgerSequence) actions).tasks.lookup id =
      some task) :
    ∃ admin, (run (step host p) (deployed tokens ledgerSequence) actions).admin = some admin ∧
      Granted host p (deployed tokens ledgerSequence) actions admin
        (.provisionTask task.targetDripList task.executionIntervalLedgers task.microRewardPerRun
          task.designatedKeeper) := by
  obtain ⟨env, action, hmem, hbefore, hafter⟩ := exists_cause (P := ProvisionedAs id task)
    (fun ⟨t, ht, _⟩ => nomatch ht) ⟨task, h, rfl, rfl, rfl, rfl⟩
  obtain ⟨admin, hadmin, hgrants⟩ :=
    grants_provision (wellFormed_of_mem_trace hmem) hbefore hafter
  refine ⟨admin, ?_, _, hmem, hgrants⟩
  -- the admin that has authorised it is still the admin at the end
  obtain ⟨pre, post, rfl, rfl⟩ := mem_trace_iff.1 hmem
  rw [run_append]
  exact admin_run hadmin _

theorem payees_run :
    announcedPayees (run (step host p) (deployed tokens ledgerSequence) actions) =
      emissions (step host p) (payees host p) (deployed tokens ledgerSequence) actions := by
  have hstep : ∀ (env : Env Address TokenState) (action : Action Address TokenState), True →
      announcedPayees (step host p env action) =
        announcedPayees env ++ (payees host p env action).map id := by
    intro env action _
    rw [List.map_id]
    exact payees_step host p env action
  have hlog := log_eq_append_emissions (fun _ _ _ => trivial) hstep actions
    (deployed tokens ledgerSequence) trivial
  rw [List.map_id] at hlog
  exact hlog

theorem granted_payment {amount : Int} (h : (a, amount) ∈
      (run (step host p) (deployed tokens ledgerSequence) actions).events.filterMap
        Event.payment) :
    ∃ taskId, Granted host p (deployed tokens ledgerSequence) actions a
      (.executeDripSplit taskId a) := by
  have hmem : a ∈ announcedPayees (run (step host p) (deployed tokens ledgerSequence) actions) :=
    List.mem_map_of_mem h
  rw [payees_run] at hmem
  obtain ⟨r, hr, hpaid⟩ := List.mem_flatMap.1 hmem
  obtain ⟨taskId, hgrants⟩ := grants_of_mem_payees hpaid
  exact ⟨taskId, r, hr, hgrants⟩

/-- Without a payment to the holder, nothing is announced to it. -/
theorem announcedPayments_of_unpaid (hne : a ≠ host.currentContractAddress)
    (h : ∀ amount, (a, amount) ∉ env.events.filterMap Event.payment) (token : Address) :
    announcedPayments host env token a = 0 := by
  unfold announcedPayments
  split
  · have hnone : (env.events.filterMap Event.payment).filter (fun payment => payment.1 = a) =
        [] := by
      rw [List.filter_eq_nil_iff]
      rintro ⟨b, amount⟩ hpayment hb
      obtain rfl : b = a := of_decide_eq_true hb
      exact h amount hpayment
    rw [sum_paymentTo_of_ne hne, paidTo, hnone]
    rfl
  · rfl

end Runs

/-- In every run from a deployment, in either build profile, everything is authorised. -/
theorem everything_is_authorised (host : Host Address TokenState) (p : Profile)
    (tokens : TokenState) (ledgerSequence : U32) (actions : List (Action Address TokenState)) :
    Authorised host p (deployed tokens ledgerSequence) actions where
  configuration _ h := granted_configuration h
  keepers _ _ h := granted_registration h
  tasks _ _ h := granted_provisioning h
  payees := payees_run
  paid _ _ h := granted_payment h
  stranger a hne hnothing token := by
    have hbalance := balance_run host p tokens ledgerSequence actions token a
    have hunpaid : ∀ amount, (a, amount) ∉
        (run (step host p) (deployed tokens ledgerSequence) actions).events.filterMap
          Event.payment := by
      intro amount hpayment
      obtain ⟨taskId, hgranted⟩ := granted_payment hpayment
      exact hnothing _ hgranted
    rw [announcedPayments_of_unpaid hne hunpaid, add_zero] at hbalance
    exact hbalance

end ChronosKeeper.Anchor
