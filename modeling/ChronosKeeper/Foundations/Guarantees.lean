import ChronosKeeper.Foundations.Pool

/-!
# Pre- and postconditions of programs

`Guarantees answers P Q x s` says of a program that is run from `s`, against a state that answers
its operations by `answers`: every operation it performs meets `P` in the state it is performed
in, and what it returns meets `Q`. The rules follow the program (`guarantees_bind_iff`,
`Guarantees.of_all`), and a component that was written over its own operations keeps its
guarantees when they become operations of a larger system (`Guarantees.embed`).

In a pool other parties work at the same time. A party keeps its guarantees as long as they leave
alone what it relies on (`Run.guarantees`): its view of the shared state and the history.
-/

set_option autoImplicit false

namespace ChronosKeeper.Foundations

namespace Program

variable {Op Op' : Type} {Reply : Op → Type} {Reply' : Op' → Type} {α β σ σ' : Type}

/-! ## Guarantees -/

/-- Run from the state, the program performs every operation in a state that meets `P` with it,
and returns a value that meets `Q` in the state after it. -/
def Guarantees (answers : (op : Op) → σ → Reply op → σ → Prop) (P : Op → σ → Prop)
    (Q : α → σ → Prop) : Program Op Reply α → σ → Prop
  | done a, s => Q a s
  | perform op next, s => P op s ∧ ∀ r s', answers op s r s' → (next r).Guarantees answers P Q s'

variable {answers : (op : Op) → σ → Reply op → σ → Prop} {P P₁ : Op → σ → Prop}
  {Q Q₁ : α → σ → Prop} {x : Program Op Reply α} {s : σ}

theorem guarantees_bind_iff {f : α → Program Op Reply β} {Q : β → σ → Prop} :
    (x >>= f).Guarantees answers P Q s ↔
      x.Guarantees answers P (fun a s => (f a).Guarantees answers P Q s) s := by
  induction x generalizing s with
  | done a => exact Iff.rfl
  | perform op next ih =>
      apply and_congr_right
      intro _
      apply forall_congr'
      intro r
      apply forall_congr'
      intro s'
      exact imp_congr_right fun _ => ih r

/-- Weaker conditions are guaranteed too. -/
theorem Guarantees.imp (h : x.Guarantees answers P Q s) (hP : ∀ op s, P op s → P₁ op s)
    (hQ : ∀ a s, Q a s → Q₁ a s) : x.Guarantees answers P₁ Q₁ s := by
  induction x generalizing s with
  | done a => exact hQ a s h
  | perform op next ih => exact ⟨hP op s h.1, fun r s' hr => ih r (h.2 r s' hr)⟩

/-- The rule of sequencing. -/
theorem Guarantees.bind {R : α → σ → Prop} {f : α → Program Op Reply β} {Q : β → σ → Prop}
    (hx : x.Guarantees answers P R s)
    (hf : ∀ a s, R a s → (f a).Guarantees answers P Q s) :
    (x >>= f).Guarantees answers P Q s :=
  guarantees_bind_iff.2 (hx.imp (fun _ _ => id) hf)

/-- Operations that meet `P` where they start and leave the state alone leave it as it was. -/
theorem Guarantees.of_all {K : Op → Prop} (hx : x.All K) (hP : ∀ op, K op → P op s)
    (hkeep : ∀ op r s', K op → answers op s r s' → s' = s) :
    x.Guarantees answers P (fun _ s' => s' = s) s := by
  induction x with
  | done a => exact rfl
  | perform op next ih =>
      refine ⟨hP op hx.1, fun r s' hr => ?_⟩
      obtain rfl := hkeep op r s' hx.1 hr
      exact ih r (hx.2 r)

theorem All.imp {K K' : Op → Prop} (hx : x.All K) (h : ∀ op, K op → K' op) : x.All K' := by
  induction x with
  | done a => trivial
  | perform op next ih => exact ⟨h op hx.1, fun r => ih r (hx.2 r)⟩

theorem all_true (x : Program Op Reply α) : x.All fun _ => True := by
  induction x with
  | done a => trivial
  | perform op next ih => exact ⟨trivial, ih⟩

/-! ## Components of a system -/

/-- The program over the operations of a larger system. -/
def embed (f : Op → Op') (g : (op : Op) → Reply' (f op) → Reply op) :
    Program Op Reply α → Program Op' Reply' α
  | done a => done a
  | perform op next => perform (f op) fun r => (next (g op r)).embed f g

variable {f : Op → Op'} {g : (op : Op) → Reply' (f op) → Reply op}

theorem All.embed {K : Op → Prop} {K' : Op' → Prop} (hx : x.All K) (h : ∀ op, K op → K' (f op)) :
    (x.embed f g : Program Op' Reply' α).All K' := by
  induction x with
  | done a => trivial
  | perform op next ih => exact ⟨h op hx.1, fun r => ih (g op r) (hx.2 (g op r))⟩

/-- A component keeps its guarantees in a system whose state holds its own in `view`, together
with whatever `I` the operations of the component keep. -/
theorem Guarantees.embed {answers' : (op : Op') → σ' → Reply' op → σ' → Prop}
    {P' : Op' → σ' → Prop} (view : σ' → σ) (I : σ' → Prop)
    (hanswers : ∀ op s r s', answers' (f op) s r s' → answers op (view s) (g op r) (view s'))
    (hI : ∀ op s r s', answers' (f op) s r s' → I s → I s')
    (hP : ∀ op s, I s → P op (view s) → P' (f op) s) {s : σ'}
    (hx : x.Guarantees answers P Q (view s)) (hs : I s) :
    (x.embed f g : Program Op' Reply' α).Guarantees answers' P'
      (fun a s => Q a (view s) ∧ I s) s := by
  induction x generalizing s with
  | done a => exact ⟨hx, hs⟩
  | perform op next ih =>
      refine ⟨hP op s hs hx.1, fun r s' hr => ?_⟩
      exact ih (g op r) (hx.2 _ _ (hanswers op s r s' hr)) (hI op s r s' hr hs)

/-- Where nothing is said about the rest of the state. -/
theorem Guarantees.embed_view {answers' : (op : Op') → σ' → Reply' op → σ' → Prop}
    {P' : Op' → σ' → Prop} (view : σ' → σ)
    (hanswers : ∀ op s r s', answers' (f op) s r s' → answers op (view s) (g op r) (view s'))
    (hP : ∀ op s, P op (view s) → P' (f op) s) {s : σ'}
    (hx : x.Guarantees answers P Q (view s)) :
    (x.embed f g : Program Op' Reply' α).Guarantees answers' P' (fun a s => Q a (view s)) s :=
  (hx.embed view (fun _ => True) hanswers (fun _ _ _ _ _ _ => trivial) (fun op s _ => hP op s)
    trivial).imp (fun _ _ h => h) fun _ _ h => h.1

end Program

/-! ## Parties of a pool -/

namespace Pool.Run

open Program (Guarantees)

variable {ι : Type} [DecidableEq ι] {Op : Type} {Reply : Op → Type} {σ τ : Type}
  {answers : (op : Op) → σ → Reply op → σ → Prop} {c₀ c : Pool ι Op Reply σ}
  {h : List (Action ι Op Reply)}

/-- What every operation of a party satisfies, it satisfies in every run. -/
theorem all_program {K : ι → Op → Prop} (hall : ∀ i, (c₀.program i).All (K i))
    (hrun : Run answers c₀ h c) (i : ι) : (c.program i).All (K i) :=
  hrun.party_induction (P := fun i _ x => x.All (K i)) hall
    (fun _ _ _ _ r hx => hx.2 r) i

/-- A party keeps its guarantees whatever the others do, if they leave its view alone. -/
theorem guarantees {i : ι} (view : List (Action ι Op Reply) → σ → τ)
    {own : (op : Op) → τ → Reply op → τ → Prop} {P : Op → τ → Prop} {Q : Unit → τ → Prop}
    {K : ι → Op → Prop} (hall : ∀ j, (c₀.program j).All (K j))
    (hown : ∀ h s op r s', K i op → answers op s r s' →
      own op (view h s) r (view (h ++ [⟨i, op, r⟩]) s'))
    (hother : ∀ h s j op r s', j ≠ i → K j op → answers op s r s' →
      view (h ++ [⟨j, op, r⟩]) s' = view h s)
    (hstart : (c₀.program i).Guarantees own P Q (view [] c₀.shared))
    (hrun : Run answers c₀ h c) : (c.program i).Guarantees own P Q (view h c.shared) := by
  induction hrun with
  | start => exact hstart
  | @step h c c' e hrun hstep ih =>
      cases hstep with
      | @perform j op next r s hprogram hanswers =>
          have hK : K j op := by
            have hall' := hrun.all_program hall j
            rw [hprogram] at hall'
            exact hall'.1
          by_cases hji : j = i
          · -- the party goes on from the reply, in the state after it
            subst hji
            rw [hprogram] at ih
            simp only [Function.update_self]
            exact ih.2 r _ (hown h c.shared op r s hK hanswers)
          · simp only [Function.update_of_ne (Ne.symm hji)]
            rw [hother h c.shared j op r s hji hK hanswers]
            exact ih

/-- Every operation that a party performs meets its condition. -/
theorem meets {i : ι} (view : List (Action ι Op Reply) → σ → τ)
    {own : (op : Op) → τ → Reply op → τ → Prop} {P : Op → τ → Prop} {Q : Unit → τ → Prop}
    {K : ι → Op → Prop} (hall : ∀ j, (c₀.program j).All (K j))
    (hown : ∀ h s op r s', K i op → answers op s r s' →
      own op (view h s) r (view (h ++ [⟨i, op, r⟩]) s'))
    (hother : ∀ h s j op r s', j ≠ i → K j op → answers op s r s' →
      view (h ++ [⟨j, op, r⟩]) s' = view h s)
    (hstart : (c₀.program i).Guarantees own P Q (view [] c₀.shared))
    (hrun : Run answers c₀ h c) {op : Op} {r : Reply op} {c' : Pool ι Op Reply σ}
    (hstep : Step answers c ⟨i, op, r⟩ c') :
    answers op c.shared r c'.shared ∧ P op (view h c.shared) := by
  cases hstep with
  | perform hprogram hanswers =>
      have hguarantees := hrun.guarantees view hall hown hother hstart
      rw [hprogram] at hguarantees
      exact ⟨hanswers, hguarantees.1⟩

end Pool.Run

end ChronosKeeper.Foundations
