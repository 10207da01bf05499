import ChronosKeeper.Foundations.Guarantees

/-!
# What a program costs

Every operation has a cost, a natural number. `CostAtMost cost n x` says that the program `x` spends
at most `n`, whatever the replies. Costs add along a `bind` (`CostAtMost.bind`), and where the state
keeps an account of what was spent, a program that is started with enough left in the budget never
overdraws it (`CostAtMost.guarantees`).
-/

set_option autoImplicit false

namespace ChronosKeeper.Foundations

namespace Program

variable {Op : Type} {Reply : Op → Type} {α β σ : Type}

/-- Whatever the replies, the operations of the program cost at most so much together. -/
def CostAtMost (cost : Op → Nat) : Nat → Program Op Reply α → Prop
  | _, done _ => True
  | n, perform op next => cost op ≤ n ∧ ∀ r, (next r).CostAtMost cost (n - cost op)

variable {cost : Op → Nat} {m n : Nat} {x : Program Op Reply α}

/-- More than enough is enough. -/
theorem CostAtMost.mono (h : x.CostAtMost cost m) (hle : m ≤ n) : x.CostAtMost cost n := by
  induction x generalizing m n with
  | done a => trivial
  | perform op next ih =>
      obtain ⟨hop, hnext⟩ := h
      exact ⟨Nat.le_trans hop hle, fun r => ih r (hnext r) (by omega)⟩

/-- The rule of sequencing. -/
theorem CostAtMost.bind {f : α → Program Op Reply β} (hx : x.CostAtMost cost m)
    (hf : ∀ a, (f a).CostAtMost cost n) : (x >>= f).CostAtMost cost (m + n) := by
  induction x generalizing m with
  | done a => exact (hf a).mono (Nat.le_add_left _ _)
  | perform op next ih =>
      obtain ⟨hop, hnext⟩ := hx
      refine ⟨by omega, fun r => ?_⟩
      exact (ih r (hnext r)).mono (by omega)

/-- A program that is started with enough in its budget stays within it, where every operation is
charged its cost and leaves the budget alone. -/
theorem CostAtMost.guarantees {answers : (op : Op) → σ → Reply op → σ → Prop}
    {spent budget : σ → Nat} (h : x.CostAtMost cost n)
    (hanswers : ∀ op s r s', answers op s r s' →
      spent s' = spent s + cost op ∧ budget s' = budget s) {s : σ} (hs : spent s + n ≤ budget s) :
    x.Guarantees answers (fun op s => spent s + cost op ≤ budget s)
      (fun _ s => spent s ≤ budget s) s := by
  induction x generalizing n s with
  | done a => exact Nat.le_trans (Nat.le_add_right _ _) hs
  | perform op next ih =>
      obtain ⟨hop, hnext⟩ := h
      refine ⟨by omega, fun r s' hanswer => ?_⟩
      obtain ⟨hspent, hbudget⟩ := hanswers op s r s' hanswer
      exact ih r (hnext r) (by omega)

end Program

end ChronosKeeper.Foundations
