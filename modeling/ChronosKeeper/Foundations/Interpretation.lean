import ChronosKeeper.Foundations.Postconditions
import ChronosKeeper.Foundations.Program

/-!
# Programs interpreted as transactions

`x.interp code` runs a program of operations as a transaction: `code` says what each operation
does. Since the operations are still there to be looked at, one can speak about the states in which
they are performed. `x.Performs code s op s'` says that the run of `x` from `s` comes to the
operation `op` in the state `s'`, all operations before it having succeeded.

An invariant of the operations holds wherever one of them is performed (`Performs.invariant`), and a
run that fails has failed in one of its operations (`exists_performs_of_error`).
-/

set_option autoImplicit false

namespace ChronosKeeper.Foundations.Program

variable {Op : Type} {Reply : Op → Type} {σ ε α β : Type}

/-- The transaction that performs the operations, each by its code. -/
def interp (code : (op : Op) → Tx σ ε (Reply op)) : Program Op Reply α → Tx σ ε α
  | done a => pure a
  | perform op next => code op >>= fun r => (next r).interp code

/-- From the first state, the run comes to the operation in the second. -/
inductive Performs (code : (op : Op) → Tx σ ε (Reply op)) :
    Program Op Reply α → σ → Op → σ → Prop
  | here {op : Op} {next : Reply op → Program Op Reply α} {s : σ} :
      Performs code (perform op next) s op s
  | later {op op' : Op} {next : Reply op → Program Op Reply α} {s s' s'' : σ} {r : Reply op}
      (hout : (code op).outcome s = .ok (r, s')) (h : Performs code (next r) s' op' s'') :
      Performs code (perform op next) s op' s''

variable {code : (op : Op) → Tx σ ε (Reply op)} {I : σ → Prop} {E : ε → Prop}
  {x : Program Op Reply α} {s s' : σ}

theorem interp_request (op : Op) :
    (request op : Program Op Reply (Reply op)).interp code = code op := by
  show (code op >>= fun r => pure r) = code op
  exact bind_pure (m := Tx σ ε) (code op)

/-- The parts of a program are interpreted one after the other. -/
theorem interp_bind (x : Program Op Reply α) (f : α → Program Op Reply β) :
    (x >>= f).interp code = x.interp code >>= fun a => (f a).interp code := by
  induction x with
  | done a => exact (pure_bind (m := Tx σ ε) a fun a => (f a).interp code).symm
  | perform op next ih =>
      show (code op >>= fun r => (next r >>= f).interp code) =
        (code op >>= fun r => (next r).interp code) >>= _
      rw [bind_assoc]
      exact congrArg (code op >>= ·) (funext ih)

theorem interp_request_bind (op : Op) (f : Reply op → Program Op Reply α) :
    (request op >>= f).interp code = code op >>= fun r => (f r).interp code := rfl

/-- What the operations keep holds wherever one of them is performed. -/
theorem Performs.invariant {op : Op} (hcode : ∀ op, Tx.Ensures I E (code op))
    (h : x.Performs code s op s') (hs : I s) : I s' := by
  induction h with
  | here => exact hs
  | later hout _ ih => exact ih ((hcode _ _ hs).of_ok hout)

/-- What every operation ensures, the program ensures. -/
theorem ensures_interp (hcode : ∀ op, Tx.Ensures I E (code op)) (x : Program Op Reply α) :
    Tx.Ensures I E (x.interp code) := by
  induction x with
  | done a => exact Tx.ensures_pure a
  | perform op next ih => exact (hcode op).bind ih

/-- A failed run has failed in one of its operations. -/
theorem exists_performs_of_error {e : ε} (h : (x.interp code).outcome s = .error e) :
    ∃ op s', x.Performs code s op s' ∧ (code op).outcome s' = .error e := by
  induction x generalizing s with
  | done a => cases h
  | perform op next ih =>
      cases hout : (code op).outcome s with
      | error e' =>
          have hfailed : ((perform op next).interp code).outcome s = .error e' :=
            Tx.outcome_bind_of_error hout
          rw [hfailed] at h
          cases h
          exact ⟨op, s, .here, hout⟩
      | ok r =>
          have hrest : ((perform op next).interp code).outcome s =
              ((next r.1).interp code).outcome r.2 := Tx.outcome_bind_of_ok hout
          rw [hrest] at h
          obtain ⟨op', s', hperforms, herror⟩ := ih r.1 h
          exact ⟨op', s', .later hout hperforms, herror⟩

end ChronosKeeper.Foundations.Program
