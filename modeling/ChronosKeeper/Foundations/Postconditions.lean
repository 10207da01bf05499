import ChronosKeeper.Foundations.Transaction

/-!
# Invariants and errors of a transaction

`Ensures I E x` says of a transaction that it keeps the invariant `I` and that, run from a state
satisfying it, it fails only with errors satisfying `E`. The rules follow the constructors of a
program: a sequence ensures what its parts ensure (`Ensures.bind`), and a part that depends on the
state it has read is looked at in that state (`ensures_get_bind`).
-/

set_option autoImplicit false

namespace ChronosKeeper.Foundations.Tx

variable {σ ε α β : Type}

/-- Run from `s`, the transaction succeeds in a state satisfying `I` or fails with an error
satisfying `E`. -/
def EnsuresAt (I : σ → Prop) (E : ε → Prop) (x : Tx σ ε α) (s : σ) : Prop :=
  match x.outcome s with
  | .ok (_, s') => I s'
  | .error e => E e

/-- Run from any state satisfying `I`, the transaction keeps `I` or fails with an error satisfying
`E`. -/
def Ensures (I : σ → Prop) (E : ε → Prop) (x : Tx σ ε α) : Prop := ∀ s, I s → EnsuresAt I E x s

variable {I : σ → Prop} {E : ε → Prop} {x : Tx σ ε α} {f : α → Tx σ ε β}

theorem ensuresAt_of_ok {s s' : σ} {a : α} (h : x.outcome s = .ok (a, s')) (hs' : I s') :
    EnsuresAt I E x s := by
  unfold EnsuresAt
  rw [h]
  exact hs'

theorem ensuresAt_of_error {s : σ} {e : ε} (h : x.outcome s = .error e) (he : E e) :
    EnsuresAt I E x s := by
  unfold EnsuresAt
  rw [h]
  exact he

theorem EnsuresAt.of_ok {s s' : σ} {a : α} (hx : EnsuresAt I E x s)
    (h : x.outcome s = .ok (a, s')) : I s' := by
  unfold EnsuresAt at hx
  rw [h] at hx
  exact hx

theorem EnsuresAt.of_error {s : σ} {e : ε} (hx : EnsuresAt I E x s)
    (h : x.outcome s = .error e) : E e := by
  unfold EnsuresAt at hx
  rw [h] at hx
  exact hx

/-- A sequence, its first part looked at in one state only. -/
theorem EnsuresAt.bind {s : σ} (hx : EnsuresAt I E x s) (hf : ∀ a, Ensures I E (f a)) :
    EnsuresAt I E (x >>= f) s := by
  cases h : x.outcome s with
  | error e => exact ensuresAt_of_error (outcome_bind_of_error h) (hx.of_error h)
  | ok r =>
      have hnext := hf r.1 r.2 (hx.of_ok h)
      unfold EnsuresAt at hnext ⊢
      rw [outcome_bind_of_ok h]
      exact hnext

theorem Ensures.bind (hx : Ensures I E x) (hf : ∀ a, Ensures I E (f a)) :
    Ensures I E (x >>= f) := by
  intro s hs
  exact (hx s hs).bind hf

/-- After reading the state, the rest is looked at in the state read. -/
theorem ensures_get_bind {g : σ → Tx σ ε β} (h : ∀ s, I s → EnsuresAt I E (g s) s) :
    Ensures I E (get >>= g) := by
  intro s hs
  have hnext := h s hs
  unfold EnsuresAt at hnext ⊢
  rw [outcome_bind_of_ok (outcome_get s)]
  exact hnext

theorem ensures_pure (a : α) : Ensures I E (pure a : Tx σ ε α) := by
  intro s hs
  exact ensuresAt_of_ok (outcome_pure a s) hs

theorem ensures_modify {g : σ → σ} (h : ∀ s, I s → I (g s)) :
    Ensures I E (modify g : Tx σ ε PUnit) := by
  intro s hs
  exact ensuresAt_of_ok (outcome_modify g s) (h s hs)

theorem ensures_reject (c : Prop) [Decidable c] {e : ε} (he : E e) :
    Ensures I E (reject c e : Tx σ ε Unit) := by
  intro s hs
  by_cases hc : c
  · exact ensuresAt_of_error (outcome_reject_of_pos hc e s) he
  · exact ensuresAt_of_ok (outcome_reject_of_neg hc e s) hs

theorem ensures_require (o : Option α) {e : ε} (he : E e) : Ensures I E (require o e) := by
  intro s hs
  cases o with
  | none => exact ensuresAt_of_error (outcome_require_none e s) he
  | some a => exact ensuresAt_of_ok (outcome_require_some a e s) hs

/-- A value that is there is read without an error. -/
theorem ensuresAt_require_of_some {o : Option α} {a : α} (h : o = some a) (e : ε) {s : σ}
    (hs : I s) : EnsuresAt I E (require o e) s := by
  subst h
  exact ensuresAt_of_ok (outcome_require_some a e s) hs

end ChronosKeeper.Foundations.Tx
