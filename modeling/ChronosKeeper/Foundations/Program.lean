/-!
# Programs of operations

A program performs operations one after the other and chooses each from the replies to those
before it; nothing is said about where the replies come from. The same program is then looked at
in several ways: `run` gives it a state that answers, `observe` stops a run at the first operation
of interest, and `All` speaks about every operation it can perform, whatever the replies.

Each of them has a rule for `bind`, so a statement about a program is assembled from those about
its parts.
-/

set_option autoImplicit false

namespace ChronosKeeper.Foundations

/-- A program over the operations `Op`: it returns a value, or performs an operation and goes on
from the reply. -/
inductive Program (Op : Type) (Reply : Op → Type) (α : Type) where
  | done (a : α)
  | perform (op : Op) (next : Reply op → Program Op Reply α)

namespace Program

variable {Op : Type} {Reply : Op → Type} {α β σ : Type}

protected def bind : Program Op Reply α → (α → Program Op Reply β) → Program Op Reply β
  | done a, f => f a
  | perform op next, f => perform op fun r => (next r).bind f

instance : Monad (Program Op Reply) where
  pure := done
  bind := Program.bind

/-- Performs a single operation. -/
def request (op : Op) : Program Op Reply (Reply op) := perform op done

@[simp] theorem pure_eq_done (a : α) : (pure a : Program Op Reply α) = done a := rfl

@[simp] theorem done_bind (a : α) (f : α → Program Op Reply β) : (done a >>= f) = f a := rfl

@[simp] theorem perform_bind (op : Op) (next : Reply op → Program Op Reply α)
    (f : α → Program Op Reply β) :
    (perform op next >>= f) = perform op fun r => next r >>= f := rfl

/-! ## The operations of a program -/

/-- Whatever the replies, every operation the program performs satisfies `P`. -/
def All (P : Op → Prop) : Program Op Reply α → Prop
  | done _ => True
  | perform op next => P op ∧ ∀ r, (next r).All P

theorem All.bind {P : Op → Prop} {x : Program Op Reply α} {f : α → Program Op Reply β}
    (hx : x.All P) (hf : ∀ a, (f a).All P) : (x >>= f).All P := by
  induction x with
  | done a => exact hf a
  | perform op next ih => exact ⟨hx.1, fun r => ih r (hx.2 r)⟩

theorem All.request {P : Op → Prop} {op : Op} (h : P op) :
    (request op : Program Op Reply (Reply op)).All P :=
  ⟨h, fun _ => trivial⟩

/-! ## Running against a state -/

/-- Runs the program against a state that answers its operations. The run ends without a result
where an operation has no answer. -/
def run (answer : (op : Op) → σ → Option (Reply op × σ)) :
    Program Op Reply α → σ → Option (α × σ)
  | done a, s => some (a, s)
  | perform op next, s => (answer op s).bind fun r => (next r.1).run answer r.2

/-- The first observation in a run: `seen` says which operations are observed and as what, and
the others are answered. -/
def observe (answer : (op : Op) → σ → Option (Reply op × σ)) (seen : Op → Option β) :
    Program Op Reply α → σ → Option β
  | done _, _ => none
  | perform op next, s =>
      match seen op with
      | some b => some b
      | none => (answer op s).bind fun r => (next r.1).observe answer seen r.2

section Run

variable {answer : (op : Op) → σ → Option (Reply op × σ)} {seen : Op → Option β}

theorem run_perform {op : Op} {next : Reply op → Program Op Reply α} {s s' : σ} {r : Reply op}
    (h : answer op s = some (r, s')) : (perform op next).run answer s = (next r).run answer s' := by
  show (answer op s).bind _ = _
  rw [h]
  rfl

theorem run_request (op : Op) (s : σ) :
    (request op : Program Op Reply (Reply op)).run answer s = answer op s := by
  show (answer op s).bind some = _
  cases answer op s with
  | none => rfl
  | some r => rfl

/-- A run of a `bind`: the second part goes on where the first has ended. -/
theorem run_bind (x : Program Op Reply α) (f : α → Program Op Reply β) (s : σ) :
    (x >>= f).run answer s = (x.run answer s).bind fun r => (f r.1).run answer r.2 := by
  induction x generalizing s with
  | done a => rfl
  | perform op next ih =>
      show (answer op s).bind _ = ((answer op s).bind _).bind _
      rw [Option.bind_assoc]
      exact congrArg (answer op s).bind (funext fun r => ih r.1 r.2)

theorem observe_of_seen {op : Op} {next : Reply op → Program Op Reply α} {s : σ} {b : β}
    (h : seen op = some b) : (perform op next).observe answer seen s = some b := by
  simp only [observe, h]

theorem observe_perform {op : Op} {next : Reply op → Program Op Reply α} {s s' : σ}
    {r : Reply op} (hseen : seen op = none) (h : answer op s = some (r, s')) :
    (perform op next).observe answer seen s = (next r).observe answer seen s' := by
  simp only [observe, hseen, h]
  rfl

end Run

end Program

end ChronosKeeper.Foundations
