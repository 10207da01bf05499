import ChronosKeeper.Foundations.Guarantees
import ChronosKeeper.Foundations.Returns
import Mathlib.Data.List.Forall2

/-!
# Traces of programs that have not ended

`Program.Reaches x t y` says that the events of `t` lead from the program `x` to `y`, which is what
is left of it. In a pool, what a party has performed so far leads from its program to what is left
(`Run.reaches`), so a statement about an operation of a party is read off from the program of this
party alone: which operations came before it, and where in the history (`exists_of_trace_eq_cons`).
-/

set_option autoImplicit false

namespace ChronosKeeper.Foundations

namespace Program

variable {Op Op' : Type} {Reply : Op → Type} {Reply' : Op' → Type} {α β γ : Type}
  {x y : Program Op Reply α} {t : List (Event Op Reply)}

/-- With the replies in the trace, the program performs its operations and goes on as the other. -/
inductive Reaches : Program Op Reply α → List (Event Op Reply) → Program Op Reply α → Prop
  | refl (x : Program Op Reply α) : Reaches x [] x
  | perform {op : Op} {next : Reply op → Program Op Reply α} (r : Reply op)
      {t : List (Event Op Reply)} {y : Program Op Reply α} (h : Reaches (next r) t y) :
      Reaches (perform op next) (⟨op, r⟩ :: t) y

/-- One more operation, at the end. -/
theorem Reaches.concat {op : Op} {next : Reply op → Program Op Reply α}
    (h : x.Reaches t (.perform op next)) (r : Reply op) :
    x.Reaches (t ++ [⟨op, r⟩]) (next r) := by
  generalize hy : Program.perform op next = y at h
  induction h with
  | refl x =>
      subst hy
      exact .perform r (.refl _)
  | perform r' h ih => exact .perform r' (ih hy)

theorem reaches_perform_iff {op : Op} {next : Reply op → Program Op Reply α} :
    (perform op next).Reaches t y ↔
      (t = [] ∧ y = perform op next) ∨ ∃ r t', t = ⟨op, r⟩ :: t' ∧ (next r).Reaches t' y := by
  constructor
  · rintro (_ | ⟨r, h⟩)
    · exact Or.inl ⟨rfl, rfl⟩
    · exact Or.inr ⟨r, _, rfl, h⟩
  · rintro (⟨rfl, rfl⟩ | ⟨r, t', rfl, h⟩)
    · exact .refl _
    · exact .perform r h

/-- An operation that is still to come is the first one, or comes after a reply to it. -/
theorem reaches_perform_of_ne {op op' : Op} {next : Reply op → Program Op Reply α}
    {next' : Reply op' → Program Op Reply α}
    (h : (perform op next).Reaches t (perform op' next')) (hne : op ≠ op') :
    ∃ r t', t = ⟨op, r⟩ :: t' ∧ (next r).Reaches t' (perform op' next') := by
  rcases reaches_perform_iff.1 h with ⟨-, hsame⟩ | hlater
  · injection hsame with hop
    exact absurd hop.symm hne
  · exact hlater

/-- Where the first part of a program never performs the operation still to come, it is over. By
induction on the first part. -/
theorem reaches_bind_of_all {f : α → Program Op Reply β} {op : Op}
    {next : Reply op → Program Op Reply β} {K : Op → Prop} (hx : x.All K) (hop : ¬ K op)
    (h : (x >>= f).Reaches t (.perform op next)) :
    ∃ t₁ t₂ a, t = t₁ ++ t₂ ∧ x.Returns t₁ a ∧ (f a).Reaches t₂ (.perform op next) := by
  induction x generalizing t with
  | done a => exact ⟨[], t, a, rfl, .done a, h⟩
  | perform op' next' ih =>
      have hne : op' ≠ op := fun heq => hop (heq ▸ hx.1)
      obtain ⟨r, t', rfl, h'⟩ := reaches_perform_of_ne h hne
      obtain ⟨t₁, t₂, a, rfl, hreturns, hrest⟩ := ih r (hx.2 r) h'
      exact ⟨⟨op', r⟩ :: t₁, t₂, a, rfl, .perform r hreturns, hrest⟩

/-! ## Traces of a component -/

variable {f : Op → Op'} {g : (op : Op) → Reply' (f op) → Reply op}

/-- The event of the system is one of the component. -/
def Lifts (f : Op → Op') (g : (op : Op) → Reply' (f op) → Reply op) (e' : Event Op' Reply')
    (e : Event Op Reply) : Prop :=
  ∃ r', e' = ⟨f e.op, r'⟩ ∧ e.reply = g e.op r'

theorem reaches_of_embed {t' : List (Event Op' Reply')} {z : Program Op' Reply' α}
    (h : (x.embed f g).Reaches t' z) :
    ∃ t y, z = y.embed f g ∧ x.Reaches t y ∧ List.Forall₂ (Lifts f g) t' t := by
  induction x generalizing t' with
  | done a =>
      cases h
      exact ⟨[], done a, rfl, .refl _, .nil⟩
  | perform op next ih =>
      rcases reaches_perform_iff.1 h with ⟨rfl, rfl⟩ | ⟨r, t'', rfl, h'⟩
      · exact ⟨[], perform op next, rfl, .refl _, .nil⟩
      · obtain ⟨t, y, rfl, hreaches, hlifts⟩ := ih (g op r) h'
        exact ⟨⟨op, g op r⟩ :: t, y, rfl, .perform _ hreaches, .cons ⟨r, rfl, rfl⟩ hlifts⟩

theorem returns_of_embed {t' : List (Event Op' Reply')} {a : α}
    (h : (x.embed f g).Returns t' a) :
    ∃ t, x.Returns t a ∧ List.Forall₂ (Lifts f g) t' t := by
  induction x generalizing t' with
  | done b =>
      obtain ⟨rfl, rfl⟩ := returns_done_iff.1 h
      exact ⟨[], .done a, .nil⟩
  | perform op next ih =>
      obtain ⟨r, t'', rfl, h'⟩ := returns_perform_iff.1 h
      obtain ⟨t, hreturns, hlifts⟩ := ih (g op r) h'
      exact ⟨⟨op, g op r⟩ :: t, .perform _ hreturns, .cons ⟨r, rfl, rfl⟩ hlifts⟩

/-- What is read off the events of the component, read off those of the system. -/
theorem filterMap_of_lifts {φ : Event Op' Reply' → Option γ} {ψ : Event Op Reply → Option γ}
    {t' : List (Event Op' Reply')} (h : List.Forall₂ (Lifts f g) t' t)
    (hφ : ∀ op r, φ ⟨f op, r⟩ = ψ ⟨op, g op r⟩) : t'.filterMap φ = t.filterMap ψ := by
  induction h with
  | nil => rfl
  | @cons e' e t' t he h ih =>
      obtain ⟨r, rfl, hreply⟩ := he
      have hhead : φ ⟨f e.op, r⟩ = ψ e :=
        (hφ e.op r).trans (congrArg (fun r => ψ ⟨e.op, r⟩) hreply.symm)
      rw [List.filterMap_cons, List.filterMap_cons, hhead, ih]

end Program

/-! ## Parties of a pool -/

namespace Pool

variable {ι : Type} [DecidableEq ι] {Op : Type} {Reply : Op → Type} {σ : Type}
  {answers : (op : Op) → σ → Reply op → σ → Prop} {c₀ c : Pool ι Op Reply σ}
  {h : List (Action ι Op Reply)}

/-- What a party has performed. -/
def trace (i : ι) (h : List (Action ι Op Reply)) : List (Event Op Reply) :=
  (ownActions i h).map fun e => ⟨e.op, e.reply⟩

/-- What a party has performed leads to what is left of its program. -/
theorem Run.reaches (hrun : Run answers c₀ h c) (i : ι) :
    (c₀.program i).Reaches (trace i h) (c.program i) := by
  apply hrun.party_induction
    (P := fun i own x => (c₀.program i).Reaches (own.map fun e => ⟨e.op, e.reply⟩) x)
  · exact fun i => .refl _
  · intro i own op next r hreaches
    rw [List.map_append]
    exact hreaches.concat r

/-- An event that comes first in the trace of a party, in the history. -/
theorem exists_of_trace_eq_cons {i : ι} {e : Event Op Reply} {t : List (Event Op Reply)}
    (htrace : trace i h = e :: t) :
    ∃ pre post, h = pre ++ ⟨i, e.op, e.reply⟩ :: post ∧ trace i pre = [] ∧ trace i post = t := by
  unfold trace ownActions at htrace
  obtain ⟨action, own, hown, rfl, rfl⟩ := List.map_eq_cons_iff.1 htrace
  obtain ⟨pre, post, hsplit, hpre, hi, hpost⟩ := List.filter_eq_cons_iff.1 hown
  obtain rfl := of_decide_eq_true hi
  refine ⟨pre, post, hsplit, ?_, ?_⟩
  · unfold trace ownActions
    rw [List.filter_eq_nil_iff.2 hpre, List.map_nil]
  · unfold trace ownActions
    rw [hpost]

theorem ne_of_trace_eq_nil {i : ι} (htrace : trace i h = []) : ∀ e ∈ h, e.party ≠ i := by
  intro e he hi
  have hown : e ∈ ownActions i h := mem_ownActions.2 ⟨he, hi⟩
  rw [List.map_eq_nil_iff.1 htrace] at hown
  exact List.not_mem_nil hown

/-- A prefix without an action of a party ends before any of its actions. -/
theorem prefix_of_trace_eq_nil {pre pre' post : List (Action ι Op Reply)} {e : Action ι Op Reply}
    (hinitial : pre' <+: pre ++ e :: post) (htrace : trace e.party pre' = []) : pre' <+: pre := by
  have hne := ne_of_trace_eq_nil htrace
  rw [List.append_cons] at hinitial
  rcases List.prefix_or_prefix_of_prefix hinitial (List.prefix_append (pre ++ [e]) post) with
    hle | hle
  · rcases List.prefix_concat_iff.1 hle with rfl | hle'
    · exact absurd rfl (hne e (List.mem_append_right pre (List.mem_singleton_self e)))
    · exact hle'
  · have he : e ∈ pre' := hle.mem (List.mem_append_right pre (List.mem_singleton_self e))
    exact absurd rfl (hne e he)

end Pool

end ChronosKeeper.Foundations
