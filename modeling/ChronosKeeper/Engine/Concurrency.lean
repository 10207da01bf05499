import ChronosKeeper.Engine.InFlight
import ChronosKeeper.Foundations.Pool

/-!
# Concurrent dispatches

Any number of calls run concurrently on clones of one pipeline and share its in-flight set, which
answers each of their operations at one point. `Stage` relates what a call has done to what is
left of its program, and `Deduplicates` is the invariant of the runs: the set holds exactly the
identifiers of the calls that have inserted and not yet removed, each for one of them.
-/

set_option autoImplicit false

namespace ChronosKeeper.Engine

open ChronosKeeper.Foundations

/-! ## Pools of calls -/

/-- A call that may lead to a dispatch. -/
inductive DispatchCall where
  | dispatch (task : RemoteTask) (role : ExecutionRole)
  | evaluate (task : RemoteTask) (currentLedger : U32)
  | classifyAndDispatch (task : RemoteTask) (currentLedger : U32)

namespace DispatchCall

def task : DispatchCall → RemoteTask
  | dispatch task _ => task
  | evaluate task _ => task
  | classifyAndDispatch task _ => task

def taskId (crates : Crates) (call : DispatchCall) : TaskId :=
  parseTaskId crates call.task.taskIdHex

/-- The program of a call on the components around a pipeline. -/
def program (crates : Crates) (p : Profile) (pipeline : ExecutionPipeline) :
    DispatchCall → EngineM Unit
  | dispatch task role => pipeline.dispatch crates task role
  | evaluate task currentLedger =>
      (TaskDiscovery.wired pipeline).graceMonitor.evaluate crates task currentLedger
  | classifyAndDispatch task currentLedger =>
      (TaskDiscovery.wired pipeline).classifyAndDispatch crates p task currentLedger

theorem enters_program (crates : Crates) (p : Profile) (pipeline : ExecutionPipeline)
    (call : DispatchCall) : Enters (call.taskId crates) (call.program crates p pipeline) := by
  cases call with
  | dispatch task role => exact enters_dispatch rfl
  | evaluate task currentLedger => exact enters_evaluate rfl
  | classifyAndDispatch task currentLedger => exact enters_classifyAndDispatch rfl

end DispatchCall

/-- The in-flight set answers the operations on it. The other operations may get any reply, and
leave it as it is. -/
def InFlightSet.Answers : (op : EngineOp) → InFlightSet → op.Reply → InFlightSet → Prop
  | .containsInFlight taskId, s, found, s' => found = s.contains taskId ∧ s' = s
  | .insertInFlight taskId, s, inserted, s' => (inserted, s') = s.insert taskId
  | .removeInFlight taskId, s, _, s' => s' = s.remove taskId
  | _, s, _, s' => s' = s

variable {ι : Type}

abbrev EnginePool (ι : Type) := Pool ι EngineOp EngineOp.Reply InFlightSet

abbrev EngineAction (ι : Type) := Pool.Action ι EngineOp EngineOp.Reply

/-- The calls about to start, with nothing in flight. -/
def startOf (crates : Crates) (p : Profile) (pipeline : ExecutionPipeline)
    (calls : ι → DispatchCall) : EnginePool ι where
  shared := ∅
  program i := (calls i).program crates p pipeline

/-! ## Stages -/

/-- Where a call stands, from what it has done to what is left of its program: it is checking, its
insertion was refused, it holds its identifier, or it has released it. -/
inductive Stage (i : ι) (taskId : TaskId) : List (EngineAction ι) → EngineM Unit → Prop
  | checking {own : List (EngineAction ι)} {x : EngineM Unit}
      (hown : ∀ e ∈ own, e.op.IsCheck taskId) (hx : Enters taskId x) : Stage i taskId own x
  | refused {own : List (EngineAction ι)} (hown : ∀ e ∈ own, e.op.IsCheck taskId) :
      Stage i taskId (own ++ [⟨i, .insertInFlight taskId, false⟩]) (.done ())
  | holding {own work : List (EngineAction ι)} {x : EngineM Unit}
      (hown : ∀ e ∈ own, e.op.IsCheck taskId) (hwork : ∀ e ∈ work, e.op.IsWork)
      (hx : Releases taskId x) :
      Stage i taskId (own ++ ⟨i, .insertInFlight taskId, true⟩ :: work) x
  | released {own work : List (EngineAction ι)} (hown : ∀ e ∈ own, e.op.IsCheck taskId)
      (hwork : ∀ e ∈ work, e.op.IsWork) :
      Stage i taskId (own ++ ⟨i, .insertInFlight taskId, true⟩ :: work ++
        [⟨i, .removeInFlight taskId, ()⟩]) (.done ())

theorem forall_mem_concat {α : Type} {P : α → Prop} {l : List α} {a : α} (hl : ∀ x ∈ l, P x)
    (ha : P a) : ∀ x ∈ l ++ [a], P x := by
  intro x hx
  rcases List.mem_append.1 hx with h | h
  · exact hl x h
  · exact List.mem_singleton.1 h ▸ ha

/-- An operation of the call moves it to its next stage, whatever the reply. -/
theorem Stage.step {i : ι} {taskId : TaskId} {own : List (EngineAction ι)} {op : EngineOp}
    {next : op.Reply → EngineM Unit} (h : Stage i taskId own (.perform op next)) (r : op.Reply) :
    Stage i taskId (own ++ [⟨i, op, r⟩]) (next r) := by
  cases h with
  | checking hown hx =>
      cases hx with
      | insert hrefused hwon =>
          cases r with
          | false => exact hrefused ▸ .refused hown
          | true => exact .holding hown (fun _ he => absurd he List.not_mem_nil) hwon
      | perform hop hnext => exact .checking (forall_mem_concat hown hop) (hnext r)
  | @holding own work _ hown hwork hx =>
      cases hx with
      | remove hlast =>
          exact hlast ▸ .released hown hwork
      | perform hop hnext =>
          rw [List.append_assoc, List.cons_append]
          exact .holding hown (forall_mem_concat hwork hop) (hnext r)

variable {i : ι} {taskId t : TaskId} {own h : List (EngineAction ι)} {x : EngineM Unit}

/-- Among the actions of a call that has inserted, the insertion is the only one. -/
theorem eq_of_mem_holding {own work : List (EngineAction ι)}
    (hown : ∀ e ∈ own, e.op.IsCheck t) (hwork : ∀ e ∈ work, e.op.IsWork) {inserted : Bool}
    (hmem : ⟨i, .insertInFlight taskId, inserted⟩ ∈
      own ++ (⟨i, .insertInFlight t, true⟩ : EngineAction ι) :: work) :
    taskId = t ∧ inserted = true := by
  rcases List.mem_append.1 hmem with hmem | hmem
  · exact (hown _ hmem).elim
  · rcases List.mem_cons.1 hmem with hmem | hmem
    · cases hmem
      exact ⟨rfl, rfl⟩
    · exact (hwork _ hmem).elim

theorem eq_of_mem_refused {own : List (EngineAction ι)} (hown : ∀ e ∈ own, e.op.IsCheck t)
    {inserted : Bool}
    (hmem : ⟨i, .insertInFlight taskId, inserted⟩ ∈
      own ++ [(⟨i, .insertInFlight t, false⟩ : EngineAction ι)]) :
    taskId = t ∧ inserted = false := by
  rcases List.mem_append.1 hmem with hmem | hmem
  · exact (hown _ hmem).elim
  · cases List.mem_singleton.1 hmem
    exact ⟨rfl, rfl⟩

/-! ## Holding an identifier -/

/-- By the history, the call has inserted the identifier and not yet removed it. -/
def Holds (h : List (EngineAction ι)) (i : ι) (taskId : TaskId) : Prop :=
  ⟨i, .insertInFlight taskId, true⟩ ∈ h ∧ ⟨i, .removeInFlight taskId, ()⟩ ∉ h

theorem holds_ownActions [DecidableEq ι] :
    Holds (Pool.ownActions i h) i taskId ↔ Holds h i taskId := by
  unfold Holds
  simp only [Pool.mem_ownActions, and_true]

/-- An action that neither inserts nor removes the identifier for the call. -/
theorem holds_concat_of_ne {e : EngineAction ι} (hinsert : e ≠ ⟨i, .insertInFlight taskId, true⟩)
    (hremove : e ≠ ⟨i, .removeInFlight taskId, ()⟩) :
    Holds (h ++ [e]) i taskId ↔ Holds h i taskId := by
  unfold Holds
  simp only [List.mem_append, List.mem_singleton, hinsert.symm, hremove.symm, or_false]

theorem holds_concat_insert (hremove : ⟨i, .removeInFlight t, ()⟩ ∉ h) {j : ι} :
    Holds (h ++ [⟨i, .insertInFlight t, true⟩]) j taskId ↔
      Holds h j taskId ∨ (j = i ∧ taskId = t) := by
  by_cases heq : j = i ∧ taskId = t
  · obtain ⟨rfl, rfl⟩ := heq
    refine iff_of_true ⟨List.mem_append_right _ (List.mem_singleton_self _), ?_⟩
      (Or.inr ⟨rfl, rfl⟩)
    intro hmem
    rcases List.mem_append.1 hmem with hmem | hmem
    · exact hremove hmem
    · cases List.mem_singleton.1 hmem
  · rw [or_iff_left heq]
    refine holds_concat_of_ne (fun h => ?_) fun h => by cases h
    cases h
    exact heq ⟨rfl, rfl⟩

theorem holds_concat_remove {j : ι} :
    Holds (h ++ [⟨i, .removeInFlight t, ()⟩]) j taskId ↔
      Holds h j taskId ∧ ¬ (j = i ∧ taskId = t) := by
  by_cases heq : j = i ∧ taskId = t
  · obtain ⟨rfl, rfl⟩ := heq
    refine iff_of_false (fun h => ?_) fun h => h.2 ⟨rfl, rfl⟩
    exact h.2 (List.mem_append_right _ (List.mem_singleton_self _))
  · rw [and_iff_left heq]
    refine holds_concat_of_ne (fun h => by cases h) fun h => ?_
    cases h
    exact heq ⟨rfl, rfl⟩

namespace Stage

/-- A call inserts its own identifier only. -/
theorem eq_of_inserted (hstage : Stage i t own x) {inserted : Bool}
    (hmem : ⟨i, .insertInFlight taskId, inserted⟩ ∈ own) : taskId = t := by
  cases hstage with
  | checking hown hx => exact (hown _ hmem).elim
  | refused hown => exact (eq_of_mem_refused hown hmem).1
  | holding hown hwork hx => exact (eq_of_mem_holding hown hwork hmem).1
  | released hown hwork =>
      rcases List.mem_append.1 hmem with hmem | hmem
      · exact (eq_of_mem_holding hown hwork hmem).1
      · cases List.mem_singleton.1 hmem

/-- What is left of a call that holds its identifier releases it. -/
theorem releases_of_holds (hstage : Stage i t own x) (hholds : Holds own i taskId) :
    Releases t x := by
  have heq := hstage.eq_of_inserted hholds.1
  subst heq
  cases hstage with
  | checking hown hx => exact (hown _ hholds.1).elim
  | refused hown => cases (eq_of_mem_refused hown hholds.1).2
  | holding hown hwork hx => exact hx
  | released hown hwork =>
      exact absurd (List.mem_append_right _ (List.mem_singleton_self _)) hholds.2

/-- A call that is about to test or insert an identifier has only checked so far, and it is its
own. -/
theorem checks_of_enters {op : EngineOp} {next : op.Reply → EngineM Unit}
    (hstage : Stage i t own (.perform op next))
    (hop : op = .containsInFlight taskId ∨ op = .insertInFlight taskId) :
    taskId = t ∧ ∀ e ∈ own, e.op.IsCheck t := by
  cases hstage with
  | checking hown hx =>
      refine ⟨?_, hown⟩
      cases hx with
      | insert hrefused hwon =>
          rcases hop with hop | hop <;> cases hop
          rfl
      | perform hcheck hnext =>
          rcases hop with rfl | rfl
          · exact hcheck
          · exact hcheck.elim
  | holding hown hwork hx =>
      cases hx with
      | remove hlast => rcases hop with hop | hop <;> cases hop
      | perform hwork hnext => rcases hop with rfl | rfl <;> exact hwork.elim

/-- A call that is about to remove an identifier holds it. -/
theorem holds_of_removes {next : Unit → EngineM Unit}
    (hstage : Stage i t own (.perform (.removeInFlight taskId) next)) : Holds own i taskId := by
  cases hstage with
  | checking hown hx =>
      cases hx with
      | perform hcheck hnext => exact hcheck.elim
  | holding hown hwork hx =>
      cases hx with
      | perform hwork' hnext => exact hwork'.elim
      | remove hlast =>
          refine ⟨List.mem_append_right _ List.mem_cons_self, fun hmem => ?_⟩
          rcases List.mem_append.1 hmem with hmem | hmem
          · exact (hown _ hmem).elim
          · rcases List.mem_cons.1 hmem with hmem | hmem
            · cases hmem
            · exact (hwork _ hmem).elim

/-- A call whose insertion was refused has returned, and has done nothing else but check. -/
theorem of_refused (hstage : Stage i t own x)
    (hmem : ⟨i, .insertInFlight taskId, false⟩ ∈ own) :
    x = .done () ∧ ∀ e ∈ own, e.op.IsCheck t ∨ e.op = .insertInFlight t := by
  cases hstage with
  | checking hown hx => exact (hown _ hmem).elim
  | refused hown => exact ⟨rfl, forall_mem_concat (fun e he => Or.inl (hown e he)) (Or.inr rfl)⟩
  | holding hown hwork hx => cases (eq_of_mem_holding hown hwork hmem).2
  | released hown hwork =>
      rcases List.mem_append.1 hmem with hmem | hmem
      · cases (eq_of_mem_holding hown hwork hmem).2
      · cases List.mem_singleton.1 hmem

end Stage

/-! ## The invariant of the set -/

variable {s : InFlightSet}

/-- The set holds exactly the identifiers of the calls that have inserted and not yet removed, and
each for one of them. -/
structure Deduplicates (h : List (EngineAction ι)) (s : InFlightSet) : Prop where
  inFlight_iff : ∀ taskId, taskId ∈ s ↔ ∃ i, Holds h i taskId
  unique : ∀ {i j taskId}, Holds h i taskId → Holds h j taskId → i = j

namespace Deduplicates

/-- An action that changes what no call holds. -/
theorem of_holds_iff (hd : Deduplicates h s) {h' : List (EngineAction ι)}
    (hholds : ∀ i taskId, Holds h' i taskId ↔ Holds h i taskId) : Deduplicates h' s where
  inFlight_iff taskId := by
    simp only [hholds]
    exact hd.inFlight_iff taskId
  unique hi hj := hd.unique ((hholds _ _).1 hi) ((hholds _ _).1 hj)

/-- An operation that neither inserts nor removes. -/
theorem concat (hd : Deduplicates h s) {e : EngineAction ι}
    (hinsert : ∀ t, e.op ≠ .insertInFlight t) (hremove : ∀ t, e.op ≠ .removeInFlight t) :
    Deduplicates (h ++ [e]) s :=
  hd.of_holds_iff fun _ t =>
    holds_concat_of_ne (fun heq => hinsert t (heq ▸ rfl)) fun heq => hremove t (heq ▸ rfl)

/-- A refused insertion. -/
theorem refuse (hd : Deduplicates h s) :
    Deduplicates (h ++ [⟨i, .insertInFlight taskId, false⟩]) s :=
  hd.of_holds_iff fun _ _ => holds_concat_of_ne (fun heq => by cases heq) fun heq => by cases heq

/-- A winning insertion. -/
theorem insert (hd : Deduplicates h s) (hfree : taskId ∉ s)
    (hremove : ⟨i, .removeInFlight taskId, ()⟩ ∉ h) :
    Deduplicates (h ++ [⟨i, .insertInFlight taskId, true⟩]) (Insert.insert taskId s) where
  inFlight_iff k := by
    simp only [Finset.mem_insert, holds_concat_insert hremove, hd.inFlight_iff]
    constructor
    · rintro (rfl | ⟨j, hj⟩)
      · exact ⟨i, Or.inr ⟨rfl, rfl⟩⟩
      · exact ⟨j, Or.inl hj⟩
    · rintro ⟨j, hj | ⟨-, rfl⟩⟩
      · exact Or.inr ⟨j, hj⟩
      · exact Or.inl rfl
  unique {j l k} hj hl := by
    -- Nobody held the identifier before, as it was not in the set.
    have hnone : ∀ j, ¬ Holds h j taskId := fun j hj => hfree ((hd.inFlight_iff _).2 ⟨j, hj⟩)
    rcases (holds_concat_insert hremove).1 hj with hj' | ⟨hji, hjk⟩ <;>
      rcases (holds_concat_insert hremove).1 hl with hl' | ⟨hli, hlk⟩
    · exact hd.unique hj' hl'
    · exact absurd (hlk ▸ hj') (hnone j)
    · exact absurd (hjk ▸ hl') (hnone l)
    · exact hji.trans hli.symm

/-- A removal by the call that holds the identifier. -/
theorem remove (hd : Deduplicates h s) (hholds : Holds h i taskId) :
    Deduplicates (h ++ [⟨i, .removeInFlight taskId, ()⟩]) (s.erase taskId) where
  inFlight_iff k := by
    simp only [Finset.mem_erase, holds_concat_remove, hd.inFlight_iff]
    constructor
    · rintro ⟨hne, j, hj⟩
      exact ⟨j, hj, fun h => hne h.2⟩
    · rintro ⟨j, hj, hother⟩
      refine ⟨?_, j, hj⟩
      rintro rfl
      exact hother ⟨hd.unique hj hholds, rfl⟩
  unique hj hl := hd.unique (holds_concat_remove.1 hj).1 (holds_concat_remove.1 hl).1

end Deduplicates

/-! ## Runs -/

variable {crates : Crates} {p : Profile} {pipeline : ExecutionPipeline} {calls : ι → DispatchCall}
  [DecidableEq ι] {c : EnginePool ι}

/-- In every run, every call is at one of the stages. -/
theorem stage_of_run
    (hrun : Pool.Run InFlightSet.Answers (startOf crates p pipeline calls) h c) (i : ι) :
    Stage i ((calls i).taskId crates) (Pool.ownActions i h) (c.program i) := by
  refine hrun.party_induction (P := fun i => Stage i ((calls i).taskId crates)) ?_ ?_ i
  · intro i
    exact .checking (fun _ he => absurd he List.not_mem_nil)
      (DispatchCall.enters_program crates p pipeline (calls i))
  · intro i own op next r hstage
    exact hstage.step r

/-- In every run, the set is deduplicated. -/
theorem deduplicates_of_run
    (hrun : Pool.Run InFlightSet.Answers (startOf crates p pipeline calls) h c) :
    Deduplicates h c.shared := by
  induction hrun with
  | start =>
      have hnone : ∀ i taskId, ¬ Holds ([] : List (EngineAction ι)) i taskId := fun i k h =>
        absurd h.1 List.not_mem_nil
      refine { inFlight_iff := fun k => ?_, unique := fun hi _ => absurd hi (hnone _ _) }
      refine iff_of_false (Finset.notMem_empty k) ?_
      rintro ⟨i, hi⟩
      exact hnone i k hi
  | @step h c c' e hrun hstep ih =>
      cases hstep with
      | @perform i op next r s hprogram hanswers =>
          have hstage := stage_of_run hrun i
          rw [hprogram] at hstage
          cases op with
          | insertInFlight taskId =>
              obtain ⟨rfl, rfl⟩ := Prod.mk.inj hanswers
              by_cases hmem : taskId ∈ c.shared
              · rw [decide_eq_false (not_not.2 hmem), Finset.insert_eq_of_mem hmem]
                exact ih.refuse
              · rw [decide_eq_true hmem]
                refine ih.insert hmem fun hremoved => ?_
                exact (hstage.checks_of_enters (Or.inr rfl)).2 _
                  (Pool.mem_ownActions.2 ⟨hremoved, rfl⟩)
          | removeInFlight taskId =>
              obtain rfl : s = c.shared.erase taskId := hanswers
              exact ih.remove (holds_ownActions.1 hstage.holds_of_removes)
          | containsInFlight taskId =>
              obtain ⟨-, rfl⟩ := hanswers
              exact ih.concat (fun t => EngineOp.noConfusion) fun t => EngineOp.noConfusion
          | _ =>
              obtain rfl : s = c.shared := hanswers
              exact ih.concat (fun t heq => by cases heq) fun t heq => by cases heq

/-! ## Deduplication -/

/-- What the in-flight set is for, in a configuration with the history that leads to it. -/
structure InFlightDeduplication (taskIdOf : ι → TaskId) (h : List (EngineAction ι))
    (c : EnginePool ι) : Prop where
  /-- The set is the set of the identifiers held. -/
  inFlight_iff : ∀ taskId, taskId ∈ c.shared ↔ ∃ i, Holds h i taskId
  /-- A call holds its own identifier only. -/
  ownIdentifier : ∀ i taskId, Holds h i taskId → taskId = taskIdOf i
  /-- No two calls hold an identifier. -/
  unique : ∀ i j taskId, Holds h i taskId → Holds h j taskId → i = j
  /-- A call whose insertion was refused submits nothing and removes nothing. -/
  refused : ∀ i taskId, ⟨i, .insertInFlight taskId, false⟩ ∈ h → ∀ e ∈ h, e.party = i →
    (∀ transaction, e.op ≠ .postSendTransaction transaction) ∧
      ∀ t, e.op ≠ .removeInFlight t
  /-- A call is turned away, by the insertion or by a test, only by another call that holds its
  identifier at that moment. -/
  suppressed : ∀ pre post i taskId,
    (h = pre ++ ⟨i, .insertInFlight taskId, false⟩ :: post ∨
      h = pre ++ ⟨i, .containsInFlight taskId, true⟩ :: post) →
    taskId = taskIdOf i ∧ ∃ j, j ≠ i ∧ taskIdOf j = taskIdOf i ∧ Holds pre j taskId
  /-- Once every call has returned, nothing is in flight. -/
  empty : (∀ i, c.program i = .done ()) → c.shared = ∅

theorem eq_taskId_of_holds
    (hrun : Pool.Run InFlightSet.Answers (startOf crates p pipeline calls) h c)
    (hholds : Holds h i taskId) : taskId = (calls i).taskId crates :=
  (stage_of_run hrun i).eq_of_inserted (holds_ownActions.2 hholds).1

/-- A call about to test or insert an identifier that is in the set meets another call that holds
it, and the identifier is its own. -/
theorem held_by_other
    (hrun : Pool.Run InFlightSet.Answers (startOf crates p pipeline calls) h c)
    {op : EngineOp} {next : op.Reply → EngineM Unit} (hprogram : c.program i = .perform op next)
    (hop : op = .containsInFlight taskId ∨ op = .insertInFlight taskId)
    (hmem : taskId ∈ c.shared) :
    taskId = (calls i).taskId crates ∧
      ∃ j, j ≠ i ∧ (calls j).taskId crates = (calls i).taskId crates ∧ Holds h j taskId := by
  have hstage := stage_of_run hrun i
  rw [hprogram] at hstage
  obtain ⟨heq, hown⟩ := hstage.checks_of_enters hop
  obtain ⟨j, hj⟩ := ((deduplicates_of_run hrun).inFlight_iff taskId).1 hmem
  refine ⟨heq, j, ?_, (eq_taskId_of_holds hrun hj).symm.trans heq, hj⟩
  -- The call itself has only checked so far.
  rintro rfl
  exact hown _ (holds_ownActions.2 hj).1

/-- Every configuration reached by any number of concurrent calls, whatever the RPC endpoint
answers, deduplicates what is in flight. -/
theorem dispatch_deduplicates (crates : Crates) (p : Profile) (pipeline : ExecutionPipeline)
    (calls : ι → DispatchCall) (h : List (EngineAction ι)) (c : EnginePool ι)
    (hrun : Pool.Run InFlightSet.Answers (startOf crates p pipeline calls) h c) :
    InFlightDeduplication (fun i => (calls i).taskId crates) h c := by
  have hd := deduplicates_of_run hrun
  refine { inFlight_iff := hd.inFlight_iff, ownIdentifier := ?_,
           unique := fun i j k hi hj => hd.unique hi hj, refused := ?_, suppressed := ?_,
           empty := ?_ }
  · intro i k hholds
    exact eq_taskId_of_holds hrun hholds
  · intro i k hrefused e he hparty
    have hown := ((stage_of_run hrun i).of_refused (Pool.mem_ownActions.2 ⟨hrefused, rfl⟩)).2 e
      (Pool.mem_ownActions.2 ⟨he, hparty⟩)
    constructor
    · intro transaction hop
      rw [hop] at hown
      rcases hown with hcheck | hinsert
      · exact hcheck
      · cases hinsert
    · intro t hop
      rw [hop] at hown
      rcases hown with hcheck | hinsert
      · exact hcheck
      · cases hinsert
  · intro pre post i k hsplit
    rcases hsplit with hsplit | hsplit
    · obtain ⟨c₁, c₂, hrun₁, hstep⟩ := hrun.step_of_split hsplit
      cases hstep with
      | perform hprogram hanswers =>
          have hreply := (Prod.mk.inj hanswers).1
          exact held_by_other hrun₁ hprogram (Or.inr rfl)
            (not_not.1 (of_decide_eq_false hreply.symm))
    · obtain ⟨c₁, c₂, hrun₁, hstep⟩ := hrun.step_of_split hsplit
      cases hstep with
      | perform hprogram hanswers =>
          exact held_by_other hrun₁ hprogram (Or.inl rfl) (of_decide_eq_true hanswers.1.symm)
  · intro hdone
    refine Finset.eq_empty_of_forall_notMem fun k hk => ?_
    obtain ⟨i, hi⟩ := (hd.inFlight_iff k).1 hk
    have hreleases := (stage_of_run hrun i).releases_of_holds (holds_ownActions.2 hi)
    rw [hdone i] at hreleases
    cases hreleases

/-- Two dispatches of one task: the first insertion wins, the second is refused. -/
theorem dispatch_deduplicates_sample :
    let calls : Bool → DispatchCall := fun _ => .dispatch (sampleRemoteTask 10) .secondary
    let taskId := parseTaskId sampleCrates sampleTaskIdHex
    ∃ c, Pool.Run InFlightSet.Answers (startOf sampleCrates .debug (samplePipeline 4) calls)
        [⟨true, .insertInFlight taskId, true⟩, ⟨false, .insertInFlight taskId, false⟩] c ∧
      InFlightDeduplication (fun i => (calls i).taskId sampleCrates)
        [⟨true, .insertInFlight taskId, true⟩, ⟨false, .insertInFlight taskId, false⟩] c := by
  intro calls taskId
  have hfree : InFlightSet.Answers (.insertInFlight taskId) ∅ true {taskId} :=
    Prod.ext (decide_eq_true (Finset.notMem_empty taskId)).symm rfl
  have htaken : InFlightSet.Answers (.insertInFlight taskId) {taskId} false {taskId} :=
    Prod.ext (decide_eq_false (not_not.2 (Finset.mem_singleton_self taskId))).symm
      (Finset.insert_eq_of_mem (Finset.mem_singleton_self taskId)).symm
  have hrun : Pool.Run InFlightSet.Answers
      (startOf sampleCrates .debug (samplePipeline 4) calls) _ _ :=
    .step (.step .start (.perform (i := true) rfl hfree)) (.perform (i := false) rfl htaken)
  exact ⟨_, hrun, dispatch_deduplicates sampleCrates .debug (samplePipeline 4) calls _ _ hrun⟩

end ChronosKeeper.Engine
