import ChronosKeeper.Foundations.Program
import Mathlib.Logic.Function.Basic

/-!
# Pools of concurrent programs

Any number of parties, each with a program of its own, share a state. In a step some party
performs the next operation of its program: the shared state answers it and moves on, and the
party goes on from the reply. `Run` collects the runs under every interleaving, each with its
history.

What a party does depends on its own program and the replies alone, so a statement that relates
the operations a party has performed to the program it has left is proved one operation at a time
(`Run.party_induction`).
-/

set_option autoImplicit false

namespace ChronosKeeper.Foundations

/-- A shared state and what is left of the program of every party. -/
structure Pool (ι : Type) (Op : Type) (Reply : Op → Type) (σ : Type) where
  shared : σ
  program : ι → Program Op Reply Unit

namespace Pool

/-- An operation performed by a party, with the reply. -/
structure Action (ι : Type) (Op : Type) (Reply : Op → Type) where
  party : ι
  op : Op
  reply : Reply op

variable {ι : Type} [DecidableEq ι] {Op : Type} {Reply : Op → Type} {σ : Type}

/-- One operation of one party. `answers op s r s'` is the relation "in the state `s` the operation
may be answered by `r`, and `s'` is the state after it". -/
inductive Step (answers : (op : Op) → σ → Reply op → σ → Prop) (c : Pool ι Op Reply σ) :
    Action ι Op Reply → Pool ι Op Reply σ → Prop
  | perform {i : ι} {op : Op} {next : Reply op → Program Op Reply Unit} {r : Reply op} {s : σ}
      (hprogram : c.program i = .perform op next) (hanswers : answers op c.shared r s) :
      Step answers c ⟨i, op, r⟩ ⟨s, Function.update c.program i (next r)⟩

/-- The pools reachable from `c₀`, each with the history that leads to it. -/
inductive Run (answers : (op : Op) → σ → Reply op → σ → Prop) (c₀ : Pool ι Op Reply σ) :
    List (Action ι Op Reply) → Pool ι Op Reply σ → Prop
  | start : Run answers c₀ [] c₀
  | step {h : List (Action ι Op Reply)} {c c' : Pool ι Op Reply σ} {e : Action ι Op Reply}
      (hrun : Run answers c₀ h c) (hstep : Step answers c e c') : Run answers c₀ (h ++ [e]) c'

/-- The actions of one party, in order. -/
def ownActions (i : ι) (h : List (Action ι Op Reply)) : List (Action ι Op Reply) :=
  h.filter fun e => e.party = i

theorem mem_ownActions {i : ι} {h : List (Action ι Op Reply)} {e : Action ι Op Reply} :
    e ∈ ownActions i h ↔ e ∈ h ∧ e.party = i := by
  unfold ownActions
  rw [List.mem_filter, decide_eq_true_iff]

theorem ownActions_concat_self (h : List (Action ι Op Reply)) (e : Action ι Op Reply) :
    ownActions e.party (h ++ [e]) = ownActions e.party h ++ [e] := by
  unfold ownActions
  rw [List.filter_append, List.filter_cons_of_pos (by simp), List.filter_nil]

theorem ownActions_concat_of_ne {i : ι} (h : List (Action ι Op Reply)) {e : Action ι Op Reply}
    (hne : e.party ≠ i) : ownActions i (h ++ [e]) = ownActions i h := by
  unfold ownActions
  rw [List.filter_append, List.filter_cons_of_neg (by simpa using hne), List.filter_nil,
    List.append_nil]

namespace Run

variable {answers : (op : Op) → σ → Reply op → σ → Prop} {c₀ : Pool ι Op Reply σ}

/-- What holds of a fresh party and is kept by its own operations, whatever the replies, holds of
every party in every run. -/
theorem party_induction {P : ι → List (Action ι Op Reply) → Program Op Reply Unit → Prop}
    (hstart : ∀ i, P i [] (c₀.program i))
    (hstep : ∀ i own op next (r : Reply op), P i own (.perform op next) →
      P i (own ++ [⟨i, op, r⟩]) (next r))
    {h : List (Action ι Op Reply)} {c : Pool ι Op Reply σ} (hrun : Run answers c₀ h c) :
    ∀ i, P i (ownActions i h) (c.program i) := by
  induction hrun with
  | start => exact hstart
  | @step h c c' e hrun hstep' ih =>
      intro i
      cases hstep' with
      | @perform j op next r s hprogram hanswers =>
          by_cases hij : j = i
          · subst hij
            rw [ownActions_concat_self h ⟨j, op, r⟩]
            simp only [Function.update_self]
            exact hstep j _ op next r (hprogram ▸ ih j)
          · rw [ownActions_concat_of_ne h (e := ⟨j, op, r⟩) hij]
            simp only [Function.update_of_ne (Ne.symm hij)]
            exact ih i

/-- A run goes on by an operation of a party. -/
theorem perform {h : List (Action ι Op Reply)} {c : Pool ι Op Reply σ}
    (hrun : Run answers c₀ h c) (i : ι) (op : Op) (r : Reply op)
    {next : Reply op → Program Op Reply Unit} {s : σ} (hprogram : c.program i = .perform op next)
    (hanswers : answers op c.shared r s) :
    Run answers c₀ (h ++ [⟨i, op, r⟩]) ⟨s, Function.update c.program i (next r)⟩ :=
  hrun.step (.perform hprogram hanswers)

/-- A pool that a run has reached can go on by the next operation of a party. -/
theorem exists_step {h : List (Action ι Op Reply)} {c : Pool ι Op Reply σ}
    (_hrun : Run answers c₀ h c) (i : ι) (op : Op) (r : Reply op)
    {next : Reply op → Program Op Reply Unit} {s : σ} (hprogram : c.program i = .perform op next)
    (hanswers : answers op c.shared r s) : ∃ c', Step answers c ⟨i, op, r⟩ c' :=
  ⟨_, .perform hprogram hanswers⟩

/-- Every action of a history was a step from a pool reached before it. -/
theorem step_of_split {h : List (Action ι Op Reply)} {c : Pool ι Op Reply σ}
    (hrun : Run answers c₀ h c) :
    ∀ {pre post : List (Action ι Op Reply)} {e : Action ι Op Reply}, h = pre ++ e :: post →
      ∃ c₁ c₂, Run answers c₀ pre c₁ ∧ Step answers c₁ e c₂ := by
  induction hrun with
  | start =>
      intro pre post e hsplit
      cases pre <;> cases hsplit
  | @step h c c' e' hrun hstep ih =>
      intro pre post e hsplit
      -- The action is the last one, or it belongs to the history before it.
      rcases List.eq_nil_or_concat post with rfl | ⟨post', e'', rfl⟩
      · obtain ⟨rfl, he⟩ := List.append_inj' hsplit rfl
        cases he
        exact ⟨c, c', hrun, hstep⟩
      · rw [List.concat_eq_append, ← List.cons_append, ← List.append_assoc] at hsplit
        obtain ⟨hpre, -⟩ := List.append_inj' hsplit rfl
        exact ih hpre

end Run

end Pool

end ChronosKeeper.Foundations
