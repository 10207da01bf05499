/-!
# Transactions with rollback

A transaction reads and writes a state and may fail. `outcome` is its result: a value with the
new state, or an error; the writes made before an error are not part of it. `commit` is what a
host does with a transaction: on success the new state replaces the old one, on failure the old
state is kept.

`outcome` turns sequencing into `Except.bind` (`outcome_bind`), so the result of a program is
computed step by step, and a successful sequence splits into its successful parts
(`outcome_bind_eq_ok`).
-/

set_option autoImplicit false

namespace ChronosKeeper.Foundations

/-- A transaction over the state `σ` that may fail with an error `ε`. The state reached is
returned in either case. -/
abbrev Tx (σ ε : Type) := ExceptT ε (StateM σ)

namespace Tx

variable {σ ε α β : Type}

/-- Runs the transaction from a state. -/
def exec (x : Tx σ ε α) (s : σ) : Except ε α × σ := x.run.run s

/-- The result of the transaction, the state of a failed run dropped. -/
def outcome (x : Tx σ ε α) (s : σ) : Except ε (α × σ) :=
  match x.exec s with
  | (.ok a, s') => .ok (a, s')
  | (.error e, _) => .error e

/-- The transaction as the host applies it: a failed run leaves the state as it was. -/
def commit (x : Tx σ ε α) (s : σ) : Except ε α × σ :=
  match x.exec s with
  | (.ok a, s') => (.ok a, s')
  | (.error e, _) => (.error e, s)

theorem exec_bind (x : Tx σ ε α) (f : α → Tx σ ε β) (s : σ) :
    (x >>= f).exec s =
      match x.exec s with
      | (.ok a, s') => (f a).exec s'
      | (.error e, s') => (.error e, s') := by
  -- Running the first part decides which part of the continuation is run.
  show ExceptT.bindCont f (x s).1 (x s).2 = match x s with
    | (.ok a, s') => (f a) s'
    | (.error e, s') => (.error e, s')
  rcases x s with ⟨_ | a, s'⟩ <;> rfl

/-- Sequencing, seen through the outcome. -/
theorem outcome_bind (x : Tx σ ε α) (f : α → Tx σ ε β) (s : σ) :
    (x >>= f).outcome s = (x.outcome s).bind fun r => (f r.1).outcome r.2 := by
  unfold outcome
  rw [exec_bind]
  rcases x.exec s with ⟨_ | a, s'⟩ <;> rfl

theorem outcome_bind_of_ok {x : Tx σ ε α} {f : α → Tx σ ε β} {s s' : σ} {a : α}
    (h : x.outcome s = .ok (a, s')) : (x >>= f).outcome s = (f a).outcome s' := by
  rw [outcome_bind, h]
  rfl

theorem outcome_bind_of_error {x : Tx σ ε α} {f : α → Tx σ ε β} {s : σ} {e : ε}
    (h : x.outcome s = .error e) : (x >>= f).outcome s = .error e := by
  rw [outcome_bind, h]
  rfl

/-- A successful sequence consists of two successful parts. -/
theorem outcome_bind_eq_ok {x : Tx σ ε α} {f : α → Tx σ ε β} {s s'' : σ} {b : β} :
    (x >>= f).outcome s = .ok (b, s'') ↔
      ∃ a s', x.outcome s = .ok (a, s') ∧ (f a).outcome s' = .ok (b, s'') := by
  rw [outcome_bind]
  constructor
  · intro h
    cases hx : x.outcome s with
    | error e =>
        rw [hx] at h
        cases h
    | ok r =>
        rw [hx] at h
        exact ⟨r.1, r.2, rfl, h⟩
  · rintro ⟨a, s', hx, hf⟩
    rw [hx]
    exact hf

theorem outcome_pure (a : α) (s : σ) : (pure a : Tx σ ε α).outcome s = .ok (a, s) := rfl

theorem outcome_get (s : σ) : (get : Tx σ ε σ).outcome s = .ok (s, s) := rfl

theorem outcome_modify (f : σ → σ) (s : σ) :
    (modify f : Tx σ ε PUnit).outcome s = .ok ((), f s) := rfl

theorem outcome_map_eq_ok {g : α → β} {x : Tx σ ε α} {s s' : σ} {b : β} :
    (g <$> x).outcome s = .ok (b, s') ↔ ∃ a, x.outcome s = .ok (a, s') ∧ b = g a := by
  show (x >>= fun a => pure (g a)).outcome s = _ ↔ _
  rw [outcome_bind_eq_ok]
  constructor
  · rintro ⟨a, t, hx, hg⟩
    cases hg
    exact ⟨a, hx, rfl⟩
  · rintro ⟨a, hx, rfl⟩
    exact ⟨a, s', hx, rfl⟩

theorem outcome_map_of_error {g : α → β} {x : Tx σ ε α} {s : σ} {e : ε}
    (h : x.outcome s = .error e) : (g <$> x).outcome s = .error e :=
  outcome_bind_of_error (f := fun a => pure (g a)) h

/-- The value or the error the transaction ends in. -/
def result (x : Tx σ ε α) (s : σ) : Except ε α := (x.outcome s).map Prod.fst

theorem result_of_ok {x : Tx σ ε α} {s s' : σ} {a : α} (h : x.outcome s = .ok (a, s')) :
    x.result s = .ok a := by
  rw [result, h]
  rfl

theorem result_of_error {x : Tx σ ε α} {s : σ} {e : ε} (h : x.outcome s = .error e) :
    x.result s = .error e := by
  rw [result, h]
  rfl

theorem result_bind_of_ok {x : Tx σ ε α} {f : α → Tx σ ε β} {s s' : σ} {a : α}
    (h : x.outcome s = .ok (a, s')) : (x >>= f).result s = (f a).result s' := by
  rw [result, outcome_bind_of_ok h]
  rfl

theorem result_bind_of_error {x : Tx σ ε α} {f : α → Tx σ ε β} {s : σ} {e : ε}
    (h : x.outcome s = .error e) : (x >>= f).result s = .error e :=
  result_of_error (outcome_bind_of_error h)

/-- Rewriting the returned value rewrites the result. -/
theorem result_map (g : α → β) (x : Tx σ ε α) (s : σ) :
    (g <$> x).result s = (x.result s).map g := by
  show (x >>= fun a => pure (g a)).result s = _
  cases hx : x.outcome s with
  | error e =>
      rw [result_bind_of_error hx, result_of_error hx]
      rfl
  | ok r =>
      rw [result_bind_of_ok hx, result_of_ok hx]
      rfl

/-- Fails with `e` when `c` holds. -/
def reject (c : Prop) [Decidable c] (e : ε) : Tx σ ε Unit := if c then throw e else pure ()

theorem outcome_reject (c : Prop) [Decidable c] (e : ε) (s : σ) :
    (reject c e).outcome s = if c then .error e else .ok ((), s) := by
  unfold reject
  split <;> rfl

theorem outcome_reject_of_pos {c : Prop} [Decidable c] (h : c) (e : ε) (s : σ) :
    (reject c e).outcome s = .error e := by
  rw [outcome_reject, if_pos h]

theorem outcome_reject_of_neg {c : Prop} [Decidable c] (h : ¬ c) (e : ε) (s : σ) :
    (reject c e).outcome s = .ok ((), s) := by
  rw [outcome_reject, if_neg h]

theorem outcome_reject_eq_ok {c : Prop} [Decidable c] {e : ε} {s s' : σ} {u : Unit} :
    (reject c e).outcome s = .ok (u, s') ↔ ¬ c ∧ s' = s := by
  rw [outcome_reject]
  by_cases h : c
  · simp [h]
  · simp [h, eq_comm]

/-- Reads an optional value, failing with `e` when it is absent. -/
def require (o : Option α) (e : ε) : Tx σ ε α :=
  match o with
  | some a => pure a
  | none => throw e

theorem outcome_require_some (a : α) (e : ε) (s : σ) :
    (require (some a) e).outcome s = .ok (a, s) := rfl

theorem outcome_require_none (e : ε) (s : σ) :
    (require (none : Option α) e).outcome s = .error e := rfl

theorem outcome_require_eq_ok {o : Option α} {e : ε} {s s' : σ} {a : α} :
    (require o e).outcome s = .ok (a, s') ↔ o = some a ∧ s' = s := by
  cases o with
  | none => simp [outcome_require_none]
  | some b => simp [outcome_require_some, eq_comm]

/-! ## Checks before other code -/

theorem outcome_get_bind {f : σ → Tx σ ε β} {s : σ} : (get >>= f).outcome s = (f s).outcome s :=
  outcome_bind_of_ok (outcome_get s)

theorem outcome_modify_bind {g : σ → σ} {f : PUnit → Tx σ ε β} {s : σ} :
    (modify g >>= f).outcome s = (f ()).outcome (g s) :=
  outcome_bind_of_ok (outcome_modify g s)

/-- A check leaves the state alone, so what follows it succeeds from the same state. -/
theorem outcome_reject_bind_eq_ok {c : Prop} [Decidable c] {e : ε} {f : Unit → Tx σ ε β} {s : σ}
    {r : β × σ} :
    (reject c e >>= f).outcome s = .ok r ↔ ¬ c ∧ (f ()).outcome s = .ok r := by
  by_cases h : c
  · rw [outcome_bind_of_error (outcome_reject_of_pos h e s)]
    simp [h]
  · rw [outcome_bind_of_ok (outcome_reject_of_neg h e s)]
    simp [h]

theorem outcome_require_bind_eq_ok {o : Option α} {e : ε} {f : α → Tx σ ε β} {s : σ}
    {r : β × σ} :
    (require o e >>= f).outcome s = .ok r ↔ ∃ a, o = some a ∧ (f a).outcome s = .ok r := by
  cases o with
  | none =>
      rw [outcome_bind_of_error (outcome_require_none e s)]
      simp
  | some a =>
      rw [outcome_bind_of_ok (outcome_require_some a e s)]
      simp

/-! ## Commitment -/

theorem commit_of_ok {x : Tx σ ε α} {s s' : σ} {a : α} (h : x.outcome s = .ok (a, s')) :
    x.commit s = (.ok a, s') := by
  unfold outcome at h
  unfold commit
  rcases hx : x.exec s with ⟨_ | b, t⟩
  · rw [hx] at h
    cases h
  · rw [hx] at h
    cases h
    rfl

theorem commit_of_error {x : Tx σ ε α} {s : σ} {e : ε} (h : x.outcome s = .error e) :
    x.commit s = (.error e, s) := by
  unfold outcome at h
  unfold commit
  rcases hx : x.exec s with ⟨e' | b, t⟩
  · rw [hx] at h
    cases h
    rfl
  · rw [hx] at h
    cases h

/-- A committed transaction ends in the result of its run. -/
theorem commit_fst (x : Tx σ ε α) (s : σ) : (x.commit s).1 = x.result s := by
  cases hx : x.outcome s with
  | error e => rw [commit_of_error hx, result_of_error hx]
  | ok r => rw [commit_of_ok hx, result_of_ok hx]

/-- A committed transaction succeeds exactly when its run does. -/
theorem commit_eq_ok {x : Tx σ ε α} {s s' : σ} {a : α} :
    x.commit s = (.ok a, s') ↔ x.outcome s = .ok (a, s') := by
  constructor
  · intro h
    cases hx : x.outcome s with
    | error e =>
        rw [commit_of_error hx] at h
        cases h
    | ok r =>
        obtain ⟨b, t⟩ := r
        rw [commit_of_ok hx] at h
        cases h
        rfl
  · exact commit_of_ok

/-- Either the run succeeded, or the state is the one the transaction started from. -/
theorem commit_cases (x : Tx σ ε α) (s : σ) :
    (∃ a s', x.outcome s = .ok (a, s') ∧ x.commit s = (.ok a, s')) ∨
      ∃ e, x.outcome s = .error e ∧ x.commit s = (.error e, s) := by
  cases hx : x.outcome s with
  | error e => exact Or.inr ⟨e, rfl, commit_of_error hx⟩
  | ok r => exact Or.inl ⟨r.1, r.2, rfl, commit_of_ok hx⟩

end Tx

end ChronosKeeper.Foundations
