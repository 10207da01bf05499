import ChronosKeeper.Foundations.MachineInt
import ChronosKeeper.Foundations.Run
import ChronosKeeper.Foundations.Transaction

/-!
# Agreement except for traps

Where an arithmetic operation overflows, one build profile traps and another goes on with a wrapped
result; otherwise the two compute the same. `AgreesUnlessNone` says this of a computation
that may have no result, `Tx.AgreesUnless` of transactions: wherever the first does not fail with
the given error, the second ends in the same result and state. Both are closed under sequencing, so
the agreement of two programs follows their text, and runs of systems whose steps agree along the
way are the same (`trace_eq_of_agree`).
-/

set_option autoImplicit false

namespace ChronosKeeper.Foundations

/-! ## Optional results -/

/-- The second computation has the result of the first, if there is one. -/
def AgreesUnlessNone {α : Type} (o o' : Option α) : Prop := o = none ∨ o' = o

theorem AgreesUnlessNone.refl {α : Type} (o : Option α) : AgreesUnlessNone o o := Or.inr rfl

theorem AgreesUnlessNone.bind {α β : Type} {o o' : Option α} {f f' : α → Option β}
    (h : AgreesUnlessNone o o') (hf : ∀ a, AgreesUnlessNone (f a) (f' a)) :
    AgreesUnlessNone (o >>= f) (o' >>= f') := by
  rcases h with rfl | rfl
  · exact Or.inl rfl
  · cases o' with
    | none => exact Or.inl rfl
    | some a => exact hf a

namespace Profile

variable {t : IntTy} (p : Profile) (a b : MachineInt t)

/-- Whatever the profile, a result in range is the exact one. -/
theorem fit_agrees (t : IntTy) (x : Int) : AgreesUnlessNone (debug.fit t x) (p.fit t x) := by
  by_cases h : t.InRange x
  · exact Or.inr ((p.fit_of_inRange h).trans (debug.fit_of_inRange h).symm)
  · exact Or.inl (dif_neg h)

theorem add_agrees : AgreesUnlessNone (debug.add a b) (p.add a b) := p.fit_agrees t _

theorem sub_agrees : AgreesUnlessNone (debug.sub a b) (p.sub a b) := p.fit_agrees t _

theorem mul_agrees : AgreesUnlessNone (debug.mul a b) (p.mul a b) := p.fit_agrees t _

end Profile

/-! ## Transactions -/

namespace Tx

variable {σ ε α β : Type} {e : ε} {x y : Tx σ ε α}

/-- From every state the second transaction ends as the first one does, unless that fails with the
error. -/
def AgreesUnless (e : ε) (x y : Tx σ ε α) : Prop :=
  ∀ s, x.outcome s = .error e ∨ y.outcome s = x.outcome s

theorem AgreesUnless.refl (e : ε) (x : Tx σ ε α) : AgreesUnless e x x := fun _ => Or.inr rfl

/-- The rule of sequencing. -/
theorem AgreesUnless.bind {f g : α → Tx σ ε β} (hx : AgreesUnless e x y)
    (hf : ∀ a, AgreesUnless e (f a) (g a)) : AgreesUnless e (x >>= f) (y >>= g) := by
  intro s
  rcases hx s with hfail | hsame
  · exact Or.inl (outcome_bind_of_error hfail)
  · rw [outcome_bind, outcome_bind, hsame]
    cases x.outcome s with
    | error e' => exact Or.inr rfl
    | ok r => exact hf r.1 r.2

/-- The same code comes first. -/
theorem AgreesUnless.after {f g : α → Tx σ ε β} (hf : ∀ a, AgreesUnless e (f a) (g a)) :
    AgreesUnless e (x >>= f) (x >>= g) := (AgreesUnless.refl e x).bind hf

theorem AgreesUnless.map (h : AgreesUnless e x y) (g : α → β) :
    AgreesUnless e (g <$> x) (g <$> y) := h.bind fun a => .refl e (pure (g a))

theorem AgreesUnless.ite {c : Prop} [Decidable c] {x' y' : Tx σ ε α} (h : AgreesUnless e x y)
    (h' : AgreesUnless e x' y') :
    AgreesUnless e (if c then x else x') (if c then y else y') := by
  split
  · exact h
  · exact h'

/-- A missing result is the error. -/
theorem agreesUnless_require {o o' : Option α} (h : AgreesUnlessNone o o') :
    AgreesUnless e (require o e : Tx σ ε α) (require o' e) := by
  intro s
  rcases h with rfl | rfl
  · exact Or.inl (outcome_require_none e s)
  · exact Or.inr rfl

/-- Committed transactions that agree end alike, if the second fails with the error where the first
does. -/
theorem AgreesUnless.commit_eq (h : AgreesUnless e x y) {s : σ}
    (hfail : (x.commit s).1 = .error e → (y.commit s).1 = .error e) :
    y.commit s = x.commit s := by
  have hcommit : ∀ {z : Tx σ ε α} {r}, (z.commit s).1 = .error r → z.commit s = (.error r, s) := by
    intro z r hz
    rcases commit_cases z s with ⟨a, s', -, hcommit⟩ | ⟨e', -, hcommit⟩
    · rw [hcommit] at hz
      cases hz
    · rw [hcommit] at hz ⊢
      cases hz
      rfl
  rcases h s with herror | hsame
  · have hx := commit_of_error herror
    rw [hx, hcommit (hfail (congrArg Prod.fst hx))]
  · cases hout : x.outcome s with
    | error e' => rw [commit_of_error hout, commit_of_error (hsame.trans hout)]
    | ok r => rw [commit_of_ok hout, commit_of_ok (hsame.trans hout)]

end Tx

/-! ## Runs -/

/-- Two systems whose steps are the same along a run of the first have the same run. By induction
on the actions. -/
theorem trace_eq_of_agree {S A : Type} {step step' : S → A → S} {s : S} {as : List A}
    (h : ∀ t a, (t, a) ∈ trace step s as → step' t a = step t a) :
    trace step' s as = trace step s as ∧ run step' s as = run step s as := by
  induction as generalizing s with
  | nil => exact ⟨rfl, rfl⟩
  | cons a as ih =>
      have hhead : step' s a = step s a := h s a (List.mem_cons_self ..)
      have htail := ih (s := step s a) fun t b hmem => h t b (List.mem_cons_of_mem _ hmem)
      rw [trace, trace, run_cons, run_cons, hhead, htail.1, htail.2]
      exact ⟨rfl, rfl⟩

end ChronosKeeper.Foundations
