import ChronosKeeper.Engine.NodeSafety
import ChronosKeeper.Foundations.PartialTraces

/-!
# What the health server reports

A request to the health server reads the counter, the timestamp and the in-flight set one after the
other, and the other tasks go on in between. Every response gives the values at three moments of the
run, in this order (`health_reports`), and later requests are told of ledgers that are not older
(`health_reports_are_monotone`).
-/

set_option autoImplicit false

namespace ChronosKeeper.Engine

open ChronosKeeper.Foundations

variable {χ : Type} {node : Node χ} {n : Nat} {h h₁ h₂ : List NodeAction} {c c' : NodePool χ}
  {k : Nat}

/-! ## The shared values as the history has them -/

/-- The ledger last stored. -/
def knownLedger (h : List NodeAction) : U32 := h.foldl (fun ledger e => e.op.storedLedger ledger) 0

/-- The timestamp last stored. -/
def confirmedTs (h : List NodeAction) : I64 := h.foldl (fun ts e => e.op.storedTs ts) 0

/-- The set after the insertions and removals so far. -/
def inFlightAt (h : List NodeAction) : InFlightSet := h.foldl (fun s e => e.op.inFlightAfter s) ∅

theorem shared_of_run (hrun : node.Run n h c) :
    c.shared.lastKnown = knownLedger h ∧ c.shared.lastConfirmedTs = confirmedTs h ∧
      c.shared.inFlight = inFlightAt h := by
  induction hrun with
  | start => exact ⟨rfl, rfl, rfl⟩
  | step hrun hstep ih =>
      obtain ⟨hledger, hts, hset⟩ := ih
      unfold knownLedger confirmedTs inFlightAt at *
      rw [List.foldl_append, List.foldl_append, List.foldl_append, ← hledger, ← hts, ← hset]
      exact Node.shared_after (owns_of_step hrun hstep).2

/-- A history is one of a run up to any of its actions. -/
theorem run_of_initial (hrun : node.Run n h c) : ∀ {h₁}, h₁ <+: h → ∃ c₁, node.Run n h₁ c₁ := by
  induction hrun with
  | start =>
      intro h₁ hinitial
      rw [List.prefix_nil.1 hinitial]
      exact ⟨_, .start⟩
  | step hrun hstep ih =>
      intro h₁ hinitial
      rcases List.prefix_concat_iff.1 hinitial with rfl | hinitial'
      · exact ⟨_, hrun.step hstep⟩
      · exact ih hinitial'

/-- The counter never decreases, by induction on the run. -/
theorem knownLedger_mono (hrun : node.Run n h c) :
    ∀ {h₁}, h₁ <+: h → knownLedger h₁ ≤ knownLedger h := by
  induction hrun with
  | start =>
      intro h₁ hinitial
      rw [List.prefix_nil.1 hinitial]
      exact MachineInt.le_iff.2 (le_refl _)
  | step hrun hstep ih =>
      intro h₁ hinitial
      rcases List.prefix_concat_iff.1 hinitial with rfl | hinitial'
      · exact MachineInt.le_iff.2 (le_refl _)
      · have hle := lastKnown_le_of_step hrun hstep
        rw [(shared_of_run hrun).1, (shared_of_run (hrun.step hstep)).1] at hle
        exact MachineInt.le_iff.2 ((MachineInt.le_iff.1 (ih hinitial')).trans hle)

/-! ## A request -/

/-- The response to the values read. -/
def report (ledger : U32) (ts : I64) (count : Nat) : HealthResponse where
  currentLedger := ledger
  lastExecutionTimestamp := executionTimestamp ts
  inFlightCount := count

/-- Before it responds, a request has read the three values. -/
theorem health_reaches {t : List (Event NodeOp NodeOp.Reply)} {response : HealthResponse}
    {next : Unit → NodeM Unit}
    (h : ((node.start n).program (.health k)).Reaches t
      (.perform (.health (.respond response)) next)) :
    ∃ ledger ts count, t = [⟨.health .loadCurrentLedger, ledger⟩,
        ⟨.health .loadLastConfirmedTs, ts⟩, ⟨.health .lenInFlight, count⟩] ∧
      response = report ledger ts count := by
  obtain ⟨ledger, t₁, rfl, h₁⟩ := Program.reaches_perform_of_ne h fun heq => nomatch heq
  obtain ⟨ts, t₂, rfl, h₂⟩ := Program.reaches_perform_of_ne h₁ fun heq => nomatch heq
  obtain ⟨count, t₃, rfl, h₃⟩ := Program.reaches_perform_of_ne h₂ fun heq => nomatch heq
  refine ⟨ledger, ts, count, ?_⟩
  rcases Program.reaches_perform_iff.1 h₃ with ⟨rfl, hsame⟩ | ⟨r, t₄, -, h₄⟩
  · -- the response is the one to these values
    injection hsame with hop
    cases hop
    exact ⟨rfl, rfl⟩
  · cases h₄

/-- What a request reads in a run is the value that the history has. -/
theorem eq_of_read (hrun : node.Run n h c) {pre post : List NodeAction} {op : HealthOp}
    {r : op.Reply} (hsplit : h = pre ++ ⟨.health k, .health op, r⟩ :: post) :
    ∃ s s', Node.HealthAnswers (χ := χ) op s r s' ∧ s.lastKnown = knownLedger pre ∧
      s.lastConfirmedTs = confirmedTs pre ∧ s.inFlight = inFlightAt pre := by
  obtain ⟨c₁, c₂, hrun₁, hstep⟩ := hrun.step_of_split hsplit
  exact ⟨_, _, (owns_of_step hrun₁ hstep).2, shared_of_run hrun₁⟩

/-- Every response gives the values at three moments of the run, each not before the one before
it; the first is when the request begins. -/
theorem moments_of_response (hrun : node.Run n h c) {response : HealthResponse} {r : Unit}
    (hstep : Pool.Step node.Answers c ⟨.health k, .health (.respond response), r⟩ c') :
    ∃ h₁ h₂ h₃, h₁ <+: h₂ ∧ h₂ <+: h₃ ∧ h₃ <+: h ∧
      (∀ pre, pre <+: h → Pool.trace (.health k) pre = [] → pre <+: h₁) ∧
      response = report (knownLedger h₁) (confirmedTs h₂) (inFlightAt h₃).len := by
  have hreaches := hrun.reaches (.health k)
  cases hstep with
  | perform hprogram hanswers =>
      rw [hprogram] at hreaches
      obtain ⟨ledger, ts, count, htrace, rfl⟩ := health_reaches hreaches
      obtain ⟨h₁, post₁, hsplit₁, hbefore, htrace₁⟩ := Pool.exists_of_trace_eq_cons htrace
      obtain ⟨h₂, post₂, hsplit₂, -, htrace₂⟩ := Pool.exists_of_trace_eq_cons htrace₁
      obtain ⟨h₃, post₃, hsplit₃, -, -⟩ := Pool.exists_of_trace_eq_cons htrace₂
      -- the history up to each of the reads
      have hsplit₂' : h = (h₁ ++ ⟨.health k, .health .loadCurrentLedger, ledger⟩ :: h₂) ++
          ⟨.health k, .health .loadLastConfirmedTs, ts⟩ :: post₂ := by
        simp only [hsplit₁, hsplit₂, List.append_assoc, List.cons_append]
      have hsplit₃' : h = ((h₁ ++ ⟨.health k, .health .loadCurrentLedger, ledger⟩ :: h₂) ++
          ⟨.health k, .health .loadLastConfirmedTs, ts⟩ :: h₃) ++
          ⟨.health k, .health .lenInFlight, count⟩ :: post₃ := by
        simp only [hsplit₂', hsplit₃, List.append_assoc, List.cons_append]
      obtain ⟨s₁, _, hledger, hs₁, -⟩ := eq_of_read hrun hsplit₁
      obtain ⟨s₂, _, hts, -, hs₂, -⟩ := eq_of_read hrun hsplit₂'
      obtain ⟨s₃, _, hcount, -, -, hs₃⟩ := eq_of_read hrun hsplit₃'
      refine ⟨_, _, _, List.prefix_append .., List.prefix_append .., ⟨_, hsplit₃'.symm⟩, ?_, ?_⟩
      · intro pre hinitial hnone
        exact Pool.prefix_of_trace_eq_nil (hsplit₁ ▸ hinitial) hnone
      · have hledger' : ledger = knownLedger h₁ := hledger.1.trans hs₁
        have hts' : ts = confirmedTs _ := hts.1.trans hs₂
        have hcount' : count = (inFlightAt _).len := hcount.1.trans (congrArg _ hs₃)
        exact congr (congr (congrArg report hledger') hts') hcount'

/-- A timestamp other than the one at the start was stored, by induction from the last action. -/
theorem stored_of_confirmedTs (h : List NodeAction) (hts : confirmedTs h ≠ 0) :
    ∃ e ∈ h, e.op = .discovery (.engine (.storeLastConfirmedTs (confirmedTs h))) := by
  induction h using List.reverseRecOn with
  | nil => exact absurd rfl hts
  | append_singleton h e ih =>
      have hlast : confirmedTs (h ++ [e]) = e.op.storedTs (confirmedTs h) := List.foldl_append
      rw [hlast] at hts ⊢
      -- the last action stores the timestamp, or the one before it still stands
      have hold : e.op.storedTs (confirmedTs h) = confirmedTs h →
          ∃ e' ∈ h ++ [e], e'.op =
            .discovery (.engine (.storeLastConfirmedTs (e.op.storedTs (confirmedTs h)))) := by
        intro hsame
        rw [hsame] at hts ⊢
        obtain ⟨e', he', hop⟩ := ih hts
        exact ⟨e', List.mem_append_left _ he', hop⟩
      obtain ⟨i, op, r⟩ := e
      cases op with
      | poller op => exact hold rfl
      | health op => exact hold rfl
      | discovery op =>
          cases op with
          | engine op =>
              cases op with
              | storeLastConfirmedTs ts =>
                  exact ⟨_, List.mem_append_right _ (List.mem_singleton_self _), rfl⟩
              | _ => exact hold rfl
          | _ => exact hold rfl

/-! ## Reports -/

/-- What a response says of a run. -/
structure Reports (h : List NodeAction) (k : Nat) (response : HealthResponse) : Prop where
  /-- It gives the values at three moments, each not before the one before it; the first is when
  the request begins. -/
  moments : ∃ h₁ h₂ h₃, h₁ <+: h₂ ∧ h₂ <+: h₃ ∧ h₃ <+: h ∧
    (∀ pre, pre <+: h → Pool.trace (.health k) pre = [] → pre <+: h₁) ∧
    response = report (knownLedger h₁) (confirmedTs h₂) (inFlightAt h₃).len
  ledger_le : response.currentLedger ≤ knownLedger h
  /-- A timestamp that is reported was stored. -/
  stored : ∀ ts, response.lastExecutionTimestamp = some ts →
    ts ≠ 0 ∧ ∃ e ∈ h, e.op = .discovery (.engine (.storeLastConfirmedTs ts))
  count_le : response.inFlightCount ≤ 1

/-- Two requests, one after the other, once the ledger 100 is known. -/
theorem run_sample_responds : ∃ h c c' pre post, sampleNode.Run 2 h c ∧
    h = pre ++ ⟨.health 0, .health (.respond (report 100 0 0)), ()⟩ :: post ∧
    Pool.trace (.health 1) pre = [] ∧
    Pool.Step sampleNode.Answers c ⟨.health 1, .health (.respond (report 100 0 0)), ()⟩ c' := by
  obtain ⟨c, hrun, hshared, -, -, hprogram⟩ := run_sample
  have hledger : 100 = c.shared.lastKnown := congrArg NodeState.lastKnown hshared.symm
  have hts : 0 = c.shared.lastConfirmedTs := congrArg NodeState.lastConfirmedTs hshared.symm
  have hcount : 0 = c.shared.inFlight.len :=
    congrArg (fun s : NodeState _ => s.inFlight.len) hshared.symm
  have h₁ := hrun.perform (.health 0) (.health .loadCurrentLedger) 100 (hprogram 0) ⟨hledger, rfl⟩
  have h₂ := h₁.perform (.health 0) (.health .loadLastConfirmedTs) 0 rfl ⟨hts, rfl⟩
  have h₃ := h₂.perform (.health 0) (.health .lenInFlight) 0 rfl ⟨hcount, rfl⟩
  have h₄ := h₃.perform (.health 0) (.health (.respond (report 100 0 0))) () rfl rfl
  have h₅ := h₄.perform (.health 1) (.health .loadCurrentLedger) 100 (hprogram 1) ⟨hledger, rfl⟩
  have h₆ := h₅.perform (.health 1) (.health .loadLastConfirmedTs) 0 rfl ⟨hts, rfl⟩
  have h₇ := h₆.perform (.health 1) (.health .lenInFlight) 0 rfl ⟨hcount, rfl⟩
  exact ⟨_, _, _, sampleHistory ++ [⟨.health 0, .health .loadCurrentLedger, 100⟩,
    ⟨.health 0, .health .loadLastConfirmedTs, 0⟩, ⟨.health 0, .health .lenInFlight, 0⟩], _, h₇, rfl,
    rfl, .perform rfl rfl⟩

/-- The ledger of a response was known when it is made. -/
theorem currentLedger_le_knownLedger (hrun : node.Run n h c) {response : HealthResponse} {r : Unit}
    (hstep : Pool.Step node.Answers c ⟨.health k, .health (.respond response), r⟩ c') :
    response.currentLedger ≤ knownLedger h := by
  obtain ⟨h₁, h₂, h₃, h₁₂, h₂₃, h₃h, -, rfl⟩ := moments_of_response hrun hstep
  exact knownLedger_mono hrun (h₁₂.trans (h₂₃.trans h₃h))

/-- Every response that is made in a run reports about it. -/
theorem health_reports (hrun : node.Run n h c) {response : HealthResponse} {r : Unit}
    (hstep : Pool.Step node.Answers c ⟨.health k, .health (.respond response), r⟩ c') :
    Reports h k response := by
  have hledger := currentLedger_le_knownLedger hrun hstep
  obtain ⟨h₁, h₂, h₃, h₁₂, h₂₃, h₃h, hfirst, rfl⟩ := moments_of_response hrun hstep
  refine ⟨⟨h₁, h₂, h₃, h₁₂, h₂₃, h₃h, hfirst, rfl⟩, hledger, ?_, ?_⟩
  · intro ts hts
    have hts' : executionTimestamp (confirmedTs h₂) = some ts := hts
    unfold executionTimestamp at hts'
    split at hts'
    · cases hts'
    · rename_i hne
      cases hts'
      obtain ⟨e, he, hop⟩ := stored_of_confirmedTs h₂ hne
      exact ⟨hne, e, (h₂₃.trans h₃h).mem he, hop⟩
  · obtain ⟨c₃, hrun₃⟩ := run_of_initial hrun h₃h
    have hcard := card_inFlight_le_one hrun₃
    rw [(shared_of_run hrun₃).2.2] at hcard
    exact hcard

theorem health_reports_sample : ∃ h c c', sampleNode.Run 2 h c ∧
    Pool.Step sampleNode.Answers c ⟨.health 1, .health (.respond (report 100 0 0)), ()⟩ c' ∧
    Reports h 1 (report 100 0 0) := by
  obtain ⟨h, c, c', pre, post, hrun, -, -, hstep⟩ := run_sample_responds
  exact ⟨h, c, c', hrun, hstep, health_reports hrun hstep⟩

/-- A request that begins after another was responded to is told of a ledger that is not older. -/
theorem health_reports_are_monotone (hrun : node.Run n h c) {k' : Nat}
    {earlier response : HealthResponse} {r r' : Unit} {pre post : List NodeAction}
    (hsplit : h = pre ++ ⟨.health k', .health (.respond earlier), r'⟩ :: post)
    (hbegins : Pool.trace (.health k) pre = [])
    (hstep : Pool.Step node.Answers c ⟨.health k, .health (.respond response), r⟩ c') :
    earlier.currentLedger ≤ response.currentLedger := by
  obtain ⟨c₁, c₂, hrun₁, hstep₁⟩ := hrun.step_of_split hsplit
  obtain ⟨h₁, h₂, h₃, h₁₂, h₂₃, h₃h, hfirst, rfl⟩ := moments_of_response hrun hstep
  have hpre : pre <+: h₁ := hfirst pre ⟨_, hsplit.symm⟩ hbegins
  obtain ⟨c₃, hrun₃⟩ := run_of_initial hrun (h₁₂.trans (h₂₃.trans h₃h))
  have hearlier := currentLedger_le_knownLedger hrun₁ hstep₁
  exact MachineInt.le_iff.2 ((MachineInt.le_iff.1 hearlier).trans
    (MachineInt.le_iff.1 (knownLedger_mono hrun₃ hpre)))

theorem health_reports_are_monotone_sample : ∃ h c c', sampleNode.Run 2 h c ∧
    Pool.Step sampleNode.Answers c ⟨.health 1, .health (.respond (report 100 0 0)), ()⟩ c' ∧
    (report 100 0 0).currentLedger ≤ (report 100 0 0).currentLedger := by
  obtain ⟨h, c, c', pre, post, hrun, hsplit, hbegins, hstep⟩ := run_sample_responds
  exact ⟨h, c, c', hrun, hstep, health_reports_are_monotone hrun hsplit hbegins hstep⟩

/-! ## The engine without queries -/

/-- The action neither submits, nor inserts a task, nor stores a timestamp. -/
def NodeOp.IsIdle : NodeOp → Prop
  | .discovery (.engine (.postSendTransaction _)) => False
  | .discovery (.engine (.insertInFlight _)) => False
  | .discovery (.engine (.storeLastConfirmedTs _)) => False
  | _ => True

/-- Where queries find nothing, the loop is idle. -/
theorem isIdle_of_mem (hqueries : ∀ seq query, node.Queries seq query → query.found = [])
    (hrun : node.Run n h c) : ∀ e ∈ h, e.op.IsIdle := by
  intro e he
  obtain ⟨pre, post, hsplit⟩ := List.append_of_mem he
  obtain ⟨c₁, c₂, hrun₁, hstep⟩ := hrun.step_of_split hsplit
  obtain ⟨i, op, r⟩ := e
  cases op with
  | poller op => trivial
  | health op => trivial
  | discovery op =>
      cases op with
      | engine op =>
          obtain ⟨entry, rfl⟩ | ⟨seq, query, -, hquery, hsolo⟩ := (loop_meets hrun₁ hstep).1
          · trivial
          rw [hqueries seq query hquery] at hsolo
          cases op with
          | postSendTransaction envelope =>
              obtain ⟨task, htask, -⟩ := hsolo
              exact absurd htask List.not_mem_nil
          | insertInFlight taskId =>
              obtain ⟨-, task, htask, -⟩ := hsolo
              exact absurd htask List.not_mem_nil
          | storeLastConfirmedTs ts =>
              obtain ⟨task, htask, -⟩ := hsolo
              exact absurd htask List.not_mem_nil
          | _ => trivial
      | _ => trivial

/-- Idle actions leave the set empty and the timestamp as it was at the start, by induction from
the last one. -/
theorem unchanged_of_isIdle (h : List NodeAction) (hidle : ∀ e ∈ h, e.op.IsIdle) :
    confirmedTs h = 0 ∧ inFlightAt h = ∅ := by
  induction h using List.reverseRecOn with
  | nil => exact ⟨rfl, rfl⟩
  | append_singleton h e ih =>
      have hlastTs : confirmedTs (h ++ [e]) = e.op.storedTs (confirmedTs h) := List.foldl_append
      have hlastSet : inFlightAt (h ++ [e]) = e.op.inFlightAfter (inFlightAt h) :=
        List.foldl_append
      obtain ⟨hts, hset⟩ := ih fun e he => hidle e (List.mem_append_left _ he)
      have hlast := hidle e (List.mem_append_right _ (List.mem_singleton_self e))
      rw [hlastTs, hlastSet, hts, hset]
      obtain ⟨i, op, r⟩ := e
      cases op with
      | poller op => exact ⟨rfl, rfl⟩
      | health op => exact ⟨rfl, rfl⟩
      | discovery op =>
          cases op with
          | engine op =>
              cases op with
              | insertInFlight taskId => exact hlast.elim
              | storeLastConfirmedTs ts => exact hlast.elim
              | removeInFlight taskId => exact ⟨rfl, rfl⟩
              | _ => exact ⟨rfl, rfl⟩
          | _ => exact ⟨rfl, rfl⟩

/-- The engine as `main` builds it, with the query as it is in the source, submits nothing in any
run, and the health server never reports an execution or a task in flight. -/
theorem engine_of_config_is_inert {crates : Crates} {p : Profile} {cfg : EngineConfig}
    {keeperAddress : String} {signingKeyBytes : Anchor.BytesN 32}
    {channel : BroadcastChannel LedgerEvent χ}
    (hrun : (Node.ofConfig crates p cfg keeperAddress signingKeyBytes channel).Run n h c) :
    (∀ e ∈ h, ∀ envelope, e.op ≠ .discovery (.engine (.postSendTransaction envelope))) ∧
      c.shared.inFlight = ∅ ∧ c.shared.lastConfirmedTs = 0 ∧
      ∀ e ∈ h, ∀ response, e.op = .health (.respond response) →
        response.lastExecutionTimestamp = none ∧ response.inFlightCount = 0 := by
  have hidle := isIdle_of_mem (fun seq query hquery => by rw [hquery]; rfl) hrun
  obtain ⟨hts, hset⟩ := unchanged_of_isIdle h hidle
  obtain ⟨-, hts', hset'⟩ := shared_of_run hrun
  refine ⟨?_, hset'.trans hset, hts'.trans hts, ?_⟩
  · intro e he envelope hop
    have hbusy := hidle e he
    rw [hop] at hbusy
    exact hbusy
  · intro e he response hop
    obtain ⟨pre, post, hsplit⟩ := List.append_of_mem he
    obtain ⟨c₁, c₂, hrun₁, hstep⟩ := hrun.step_of_split hsplit
    obtain ⟨i, op, r⟩ := e
    obtain rfl : op = .health (.respond response) := hop
    cases i with
    | poller => exact (owns_of_step hrun₁ hstep).1.elim
    | discovery => exact (owns_of_step hrun₁ hstep).1.elim
    | health k =>
        -- the values reported are those of a prefix of the run
        obtain ⟨h₁, h₂, h₃, -, h₂₃, h₃pre, -, rfl⟩ := moments_of_response hrun₁ hstep
        have hinitial : pre <+: h := ⟨_, hsplit.symm⟩
        have hzero : ∀ {h'}, h' <+: h → confirmedTs h' = 0 ∧ inFlightAt h' = ∅ := fun hle =>
          unchanged_of_isIdle _ fun e he => hidle e (hle.mem he)
        rw [(hzero (h₂₃.trans (h₃pre.trans hinitial))).1, (hzero (h₃pre.trans hinitial)).2]
        exact ⟨rfl, rfl⟩

theorem engine_of_config_is_inert_sample : ∃ h c, (Node.ofConfig sampleCrates .release
    (sampleSettings.toConfig none) "G3" sampleSigningKey ledgerChannel).Run 1 h c ∧
    (∃ e ∈ h, e.op = .health (.respond (report 0 0 0))) ∧ c.shared.inFlight = ∅ ∧
    (report 0 0 0).lastExecutionTimestamp = none := by
  have h₀ : (Node.ofConfig sampleCrates .release (sampleSettings.toConfig none) "G3"
    sampleSigningKey ledgerChannel).Run 1 [] _ := .start
  have h₁ := h₀.perform (.health 0) (.health .loadCurrentLedger) 0 rfl ⟨rfl, rfl⟩
  have h₂ := h₁.perform (.health 0) (.health .loadLastConfirmedTs) 0 rfl ⟨rfl, rfl⟩
  have h₃ := h₂.perform (.health 0) (.health .lenInFlight) 0 rfl ⟨rfl, rfl⟩
  have h₄ := h₃.perform (.health 0) (.health (.respond (report 0 0 0))) () rfl rfl
  obtain ⟨-, hset, -, hresponses⟩ := engine_of_config_is_inert h₄
  exact ⟨_, _, h₄, ⟨_, List.mem_append_right _ (List.mem_singleton_self _), rfl⟩, hset,
    (hresponses _ (List.mem_append_right _ (List.mem_singleton_self _)) _ rfl).1⟩

end ChronosKeeper.Engine
