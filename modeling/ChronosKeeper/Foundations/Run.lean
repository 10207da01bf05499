import Mathlib.Algebra.BigOperators.Group.List.Basic
import Mathlib.Algebra.Order.Ring.Int

/-!
# Runs of a deterministic system

A system is a step function `S → A → S`. `run` applies a list of actions to a state, and `trace`
lists each action together with the state it is applied to. A property of a run is proved from
one fact about a single step:

* `run_induction` and `run_induction_of_trace`: an invariant that every step keeps, or that every
  step meeting a side condition keeps, holds at the end of the run;
* `exists_cause`: what holds at the end of a run and not at its start was brought about by a step;
* `eventTimes_spaced`: if a gate that an event must have passed moves past the event by a fixed gap,
  the times of the events are spaced by the gap;
* `run_eq_add_traceSum`: a quantity that every step changes by a known amount has changed by the
  sum of the amounts over the trace, and `run_eq_add_eventCount` for one that counts events;
* `outputs_nodup`: if what a step puts out was not in use before it and is in use ever after, no
  output occurs twice;
* `replay_emissions`: an observer that follows the emissions of every step follows those of a run.
-/

set_option autoImplicit false

namespace ChronosKeeper.Foundations

variable {S A : Type} (step : S → A → S)

/-- The state after a list of actions. -/
def run (s : S) (as : List A) : S := as.foldl step s

/-- Each action of a run with the state it is applied to. -/
def trace : S → List A → List (S × A)
  | _, [] => []
  | s, a :: as => (s, a) :: trace (step s a) as

/-- The times of the steps of a run that are events. -/
def eventTimes (ev : S → A → Bool) (time : S → Int) (s : S) (as : List A) : List Int :=
  ((trace step s as).filter fun r => ev r.1 r.2).map fun r => time r.1

/-- The number of steps of a run that are events. -/
def eventCount (ev : S → A → Bool) (s : S) (as : List A) : Nat :=
  (trace step s as).countP fun r => ev r.1 r.2

/-- What the steps of a run put out, in order. -/
def outputs {B : Type} (out : S → A → Option B) (s : S) (as : List A) : List B :=
  (trace step s as).filterMap fun r => out r.1 r.2

/-- The sum of an amount `f` over the steps of a run. -/
def traceSum (f : S → A → Int) (s : S) (as : List A) : Int :=
  ((trace step s as).map fun r => f r.1 r.2).sum

variable {step}

theorem run_nil (s : S) : run step s [] = s := rfl

theorem run_cons (s : S) (a : A) (as : List A) :
    run step s (a :: as) = run step (step s a) as := rfl

theorem run_append (s : S) (as bs : List A) :
    run step s (as ++ bs) = run step (run step s as) bs := List.foldl_append

theorem run_concat (s : S) (as : List A) (a : A) :
    run step s (as ++ [a]) = step (run step s as) a := by
  rw [run_append]
  rfl

theorem trace_append (s : S) (as bs : List A) :
    trace step s (as ++ bs) = trace step s as ++ trace step (run step s as) bs := by
  induction as generalizing s with
  | nil => rfl
  | cons a as ih =>
      simp only [List.cons_append, trace, run_cons]
      rw [ih]

/-- The entries of a trace are the actions of the run, each with the state its prefix leads to. -/
theorem mem_trace_iff {s t : S} {a : A} {as : List A} :
    (t, a) ∈ trace step s as ↔ ∃ pre post, as = pre ++ a :: post ∧ t = run step s pre := by
  induction as generalizing s with
  | nil =>
      constructor
      · intro h
        cases h
      · rintro ⟨pre, post, h, -⟩
        cases pre <;> cases h
  | cons b as ih =>
      simp only [trace, List.mem_cons, ih, Prod.mk.injEq]
      -- The first entry has the empty prefix; the others prepend the first action to theirs.
      constructor
      · rintro (⟨rfl, rfl⟩ | ⟨pre, post, rfl, rfl⟩)
        · exact ⟨[], as, rfl, rfl⟩
        · exact ⟨b :: pre, post, rfl, rfl⟩
      · rintro ⟨pre, post, h, rfl⟩
        cases pre with
        | nil =>
            cases h
            exact Or.inl ⟨rfl, rfl⟩
        | cons c pre =>
            cases h
            exact Or.inr ⟨pre, post, rfl, rfl⟩

/-- Of two entries of a trace, the later one is reached from the state after the earlier one. -/
theorem run_of_getElem?_lt {as : List A} : ∀ {s : S} {i j : Nat} {r r' : S × A}, i < j →
    (trace step s as)[i]? = some r → (trace step s as)[j]? = some r' →
    ∃ mid, r'.1 = run step (step r.1 r.2) mid := by
  induction as with
  | nil =>
      intro s i j r r' _ hr _
      cases hr
  | cons a as ih =>
      intro s i j r r' hij hr hr'
      obtain ⟨m, rfl⟩ : ∃ m, j = m + 1 := ⟨j - 1, by omega⟩
      rw [trace, List.getElem?_cons_succ] at hr'
      cases i with
      | zero =>
          cases hr
          obtain ⟨pre, post, -, hpre⟩ := mem_trace_iff.1 (List.mem_of_getElem? hr')
          exact ⟨pre, hpre⟩
      | succ n =>
          rw [trace, List.getElem?_cons_succ] at hr
          exact ih (by omega) hr hr'

/-! ## Invariants -/

/-- An invariant that every step meeting the side condition `Q` keeps holds at the end of every
run whose steps all meet it. -/
theorem run_induction_of_trace {P : S → Prop} {Q : S → A → Prop} {s : S} (h0 : P s)
    (hstep : ∀ t a, Q t a → P t → P (step t a)) :
    ∀ as : List A, (∀ r ∈ trace step s as, Q r.1 r.2) → P (run step s as) := by
  intro as
  induction as generalizing s with
  | nil => exact fun _ => h0
  | cons a as ih =>
      intro hok
      simp only [trace, List.mem_cons, forall_eq_or_imp] at hok
      exact ih (hstep s a hok.1 h0) hok.2

/-- An invariant that every step keeps holds at the end of every run. -/
theorem run_induction {P : S → Prop} {s : S} (h0 : P s) (hstep : ∀ t a, P t → P (step t a))
    (as : List A) : P (run step s as) :=
  run_induction_of_trace (Q := fun _ _ => True) h0 (fun t a _ => hstep t a) as fun _ _ => trivial

/-- What holds at the end of a run, and not at its start, was brought about by one of its steps. -/
theorem exists_cause {P : S → Prop} {as : List A} : ∀ {s : S}, ¬ P s → P (run step s as) →
    ∃ t a, (t, a) ∈ trace step s as ∧ ¬ P t ∧ P (step t a) := by
  induction as with
  | nil => exact fun hs hend => absurd hend hs
  | cons a as ih =>
      intro s hs hend
      by_cases hstep : P (step s a)
      · exact ⟨s, a, List.mem_cons_self, hs, hstep⟩
      · obtain ⟨t, b, hmem, ht, hcause⟩ := ih hstep hend
        exact ⟨t, b, List.mem_cons_of_mem _ hmem, ht, hcause⟩

/-! ## Quantities accumulated over a run -/

theorem traceSum_nil (f : S → A → Int) (s : S) : traceSum step f s [] = 0 := rfl

theorem traceSum_cons (f : S → A → Int) (s : S) (a : A) (as : List A) :
    traceSum step f s (a :: as) = f s a + traceSum step f (step s a) as := by
  simp only [traceSum, trace, List.map_cons, List.sum_cons]

theorem traceSum_sub (f g : S → A → Int) (s : S) (as : List A) :
    traceSum step (fun t a => f t a - g t a) s as =
      traceSum step f s as - traceSum step g s as := by
  induction as generalizing s with
  | nil => rfl
  | cons a as ih =>
      simp only [traceSum_cons, ih]
      omega

/-- A quantity that every step changes by `f` has changed by the sum of `f` over the run. -/
theorem run_eq_add_traceSum {P : S → Prop} {v : S → Int} {f : S → A → Int} {s : S} (h0 : P s)
    (hP : ∀ t a, P t → P (step t a)) (hv : ∀ t a, P t → v (step t a) = v t + f t a)
    (as : List A) : v (run step s as) = v s + traceSum step f s as := by
  induction as generalizing s with
  | nil => simp [run_nil, traceSum_nil]
  | cons a as ih =>
      have hstep := hv s a h0
      rw [run_cons, traceSum_cons, ih (hP s a h0)]
      omega

theorem eventCount_cons (ev : S → A → Bool) (s : S) (a : A) (as : List A) :
    eventCount step ev s (a :: as) =
      eventCount step ev (step s a) as + if ev s a = true then 1 else 0 := by
  simp only [eventCount, trace, List.countP_cons]

/-- A quantity that every event raises by one and no other step changes has grown by the number
of events. -/
theorem run_eq_add_eventCount {P : S → Prop} {v : S → Int} {ev : S → A → Bool} {s : S} (h0 : P s)
    (hP : ∀ t a, P t → P (step t a))
    (hidle : ∀ t a, P t → ev t a = false → v (step t a) = v t)
    (hev : ∀ t a, P t → ev t a = true → v (step t a) = v t + 1) (as : List A) :
    v (run step s as) = v s + eventCount step ev s as := by
  induction as generalizing s with
  | nil => simp [run_nil, eventCount, trace]
  | cons a as ih =>
      rw [run_cons, eventCount_cons, ih (hP s a h0)]
      cases hea : ev s a with
      | false => rw [hidle s a h0 hea, if_neg Bool.false_ne_true, add_zero]
      | true =>
          rw [hev s a h0 hea, if_pos rfl]
          push_cast
          omega

/-! ## Outputs -/

theorem outputs_cons {B : Type} (out : S → A → Option B) (s : S) (a : A) (as : List A) :
    outputs step out s (a :: as) = (out s a).toList ++ outputs step out (step s a) as := by
  unfold outputs
  rw [trace, List.filterMap_cons]
  cases out s a <;> rfl

/-- If what a step puts out was not in use before the step and is in use ever after, the outputs of
a run are distinct, and none was in use at the start. -/
theorem outputs_nodup {B : Type} {out : S → A → Option B} {P : S → Prop} {used : S → B → Prop}
    (hP : ∀ t a, P t → P (step t a))
    (hfresh : ∀ t a b, P t → out t a = some b → ¬ used t b ∧ used (step t a) b)
    (hused : ∀ t a b, P t → used t b → used (step t a) b) (as : List A) :
    ∀ s : S, P s → (outputs step out s as).Nodup ∧ ∀ b ∈ outputs step out s as, ¬ used s b := by
  induction as with
  | nil => exact fun s _ => ⟨List.nodup_nil, fun b hb => nomatch hb⟩
  | cons a as ih =>
      intro s hs
      obtain ⟨hnodup, hnew⟩ := ih (step s a) (hP s a hs)
      -- What is not in use after the first step was not in use before it.
      have hlater : ∀ b ∈ outputs step out (step s a) as, ¬ used s b :=
        fun b hb hsb => hnew b hb (hused s a b hs hsb)
      rw [outputs_cons]
      cases hout : out s a with
      | none => exact ⟨hnodup, hlater⟩
      | some b =>
          obtain ⟨hunused, hafter⟩ := hfresh s a b hs hout
          refine ⟨List.nodup_cons.2 ⟨fun hb => hnew b hb hafter, hnodup⟩, ?_⟩
          intro c hc
          rcases List.mem_cons.1 hc with rfl | hc
          · exact hunused
          · exact hlater c hc

/-! ## Events -/

section Events

variable {ev : S → A → Bool} {time : S → Int}

theorem eventTimes_cons_of_pos {s : S} {a : A} (h : ev s a = true) (as : List A) :
    eventTimes step ev time s (a :: as) = time s :: eventTimes step ev time (step s a) as := by
  unfold eventTimes
  rw [trace, List.filter_cons_of_pos (p := fun r : S × A => ev r.1 r.2) h, List.map_cons]

theorem eventTimes_cons_of_neg {s : S} {a : A} (h : ev s a = false) (as : List A) :
    eventTimes step ev time s (a :: as) = eventTimes step ev time (step s a) as := by
  have hne : ¬ ev s a = true := by
    rw [h]
    exact Bool.false_ne_true
  unfold eventTimes
  rw [trace, List.filter_cons_of_neg (p := fun r : S × A => ev r.1 r.2) hne]

theorem eventTimes_append (s : S) (as bs : List A) :
    eventTimes step ev time s (as ++ bs) =
      eventTimes step ev time s as ++ eventTimes step ev time (run step s as) bs := by
  unfold eventTimes
  rw [trace_append, List.filter_append, List.map_append]

theorem eventTimes_eq_nil {s : S} {as : List A}
    (h : ∀ r ∈ trace step s as, ev r.1 r.2 = false) : eventTimes step ev time s as = [] := by
  unfold eventTimes
  rw [List.map_eq_nil_iff, List.filter_eq_nil_iff]
  intro r hr
  rw [h r hr]
  exact Bool.false_ne_true

/-- Let every event happen at or after a gate and move the gate at least `gap` past itself, and
let no other step lower the gate. Then the events come at or after the gate, each at least `gap`
after the ones before it, and each raises the gate by at least `gap`. -/
theorem eventTimes_spaced {P : S → Prop} {gate : S → Int} {gap : Int} (hgap : 0 ≤ gap)
    (hP : ∀ t a, P t → P (step t a))
    (hidle : ∀ t a, P t → ev t a = false → gate t ≤ gate (step t a))
    (hev : ∀ t a, P t → ev t a = true → gate t ≤ time t ∧ time t + gap ≤ gate (step t a))
    (as : List A) : ∀ s : S, P s →
      (∀ τ ∈ eventTimes step ev time s as, gate s ≤ τ) ∧
      (eventTimes step ev time s as).Pairwise (fun τ τ' => τ + gap ≤ τ') ∧
      gate s + gap * (eventTimes step ev time s as).length ≤ gate (run step s as) := by
  induction as with
  | nil =>
      intro s _
      refine ⟨fun τ hτ => ?_, List.Pairwise.nil, ?_⟩
      · cases hτ
      · simp [eventTimes, trace, run_nil]
  | cons a as ih =>
      intro s hs
      obtain ⟨hge, hpair, hcount⟩ := ih (step s a) (hP s a hs)
      -- An event adds a time and moves the gate; any other step does neither.
      cases hea : ev s a with
      | false =>
          have hmono := hidle s a hs hea
          rw [eventTimes_cons_of_neg hea, run_cons]
          refine ⟨fun τ hτ => hmono.trans (hge τ hτ), hpair, ?_⟩
          omega
      | true =>
          obtain ⟨hpassed, hmoved⟩ := hev s a hs hea
          rw [eventTimes_cons_of_pos hea, run_cons]
          refine ⟨?_, ?_, ?_⟩
          · intro τ hτ
            rcases List.mem_cons.1 hτ with rfl | hτ
            · exact hpassed
            · have hlater := hge τ hτ
              omega
          · apply List.Pairwise.cons
            · intro τ hτ
              exact hmoved.trans (hge τ hτ)
            · exact hpair
          · rw [List.length_cons]
            push_cast
            rw [mul_add, mul_one]
            omega

end Events

/-! ## Emissions -/

section Emissions

variable {B E : Type}

/-- Everything the steps of a run emit, in order. -/
def emissions (step : S → A → S) (out : S → A → List E) (s : S) (as : List A) : List E :=
  (trace step s as).flatMap fun r => out r.1 r.2

variable {out : S → A → List E}

theorem emissions_cons (s : S) (a : A) (as : List A) :
    emissions step out s (a :: as) = out s a ++ emissions step out (step s a) as := by
  unfold emissions
  rw [trace, List.flatMap_cons]

/-- A log to which every step appends what it emits ends with what the run emits. -/
theorem log_eq_append_emissions {P : S → Prop} {F : Type} {log : S → List F} {f : E → F}
    (hP : ∀ s a, P s → P (step s a))
    (hlog : ∀ s a, P s → log (step s a) = log s ++ (out s a).map f) (as : List A) :
    ∀ s : S, P s → log (run step s as) = log s ++ (emissions step out s as).map f := by
  induction as with
  | nil => exact fun s _ => (List.append_nil _).symm
  | cons a as ih =>
      intro s hs
      rw [run_cons, ih (step s a) (hP s a hs), hlog s a hs, emissions_cons, List.map_append,
        List.append_assoc]

/-- An observer reads one emission at a time and may refuse it. If it gets through the emissions of
every step, from its view of the state before the step to its view of the state after it, it gets
through those of a run. -/
theorem replay_emissions {P : S → Prop} {read : B → E → Option B} {view : S → B}
    (hP : ∀ s a, P s → P (step s a))
    (hread : ∀ s a, P s → (out s a).foldlM read (view s) = some (view (step s a))) (as : List A) :
    ∀ s : S, P s → (emissions step out s as).foldlM read (view s) = some (view (run step s as)) := by
  induction as with
  | nil => exact fun _ _ => rfl
  | cons a as ih =>
      intro s hs
      rw [emissions_cons, List.foldlM_append, hread s a hs]
      exact ih (step s a) (hP s a hs)

end Emissions

end ChronosKeeper.Foundations
