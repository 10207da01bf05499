import Mathlib.Algebra.Order.Ring.Int
import Mathlib.Logic.Function.Iterate
import Mathlib.Tactic.Linarith

/-!
# Rounded proportional decay

`decay d x` takes the `d`-th part of `x`, rounded down, away from `x`. The rounding makes every
value below `d` a fixed point, so a value that decays again and again comes to rest between its
start and `d - 1` (`min_le_iterate_decay`), after at most as many steps as its start says
(`iterate_decay_lt`).
-/

set_option autoImplicit false

namespace ChronosKeeper.Foundations

/-- `x` without its `d`-th part. -/
def decay (d x : Int) : Int := x - x / d

variable {d x : Int}

theorem decay_of_lt (h0 : 0 ≤ x) (hx : x < d) : decay d x = x := by
  unfold decay
  rw [Int.ediv_eq_zero_of_lt h0 hx, sub_zero]

/-- A value of at least `d` moves. -/
theorem decay_lt (hd : 0 < d) (hx : d ≤ x) : decay d x < x := by
  have hpart : 1 ≤ x / d := by
    rw [Int.le_ediv_iff_mul_le hd, one_mul]
    exact hx
  unfold decay
  omega

/-- It does not fall below `d - 1`. -/
theorem le_decay (hd : 0 < d) (hx : d ≤ x) : d - 1 ≤ decay d x := by
  have hpart : 1 ≤ x / d := by
    rw [Int.le_ediv_iff_mul_le hd, one_mul]
    exact hx
  have hrest : 0 ≤ x % d := Int.emod_nonneg x hd.ne'
  have hsplit := Int.mul_ediv_add_emod x d
  have hproduct : 0 ≤ (d - 1) * (x / d - 1) := mul_nonneg (by omega) (by omega)
  unfold decay
  linarith

theorem min_le_iterate_decay (hd : 0 < d) (h0 : 0 ≤ x) (n : Nat) :
    min x (d - 1) ≤ (decay d)^[n] x := by
  induction n with
  | zero => exact min_le_left _ _
  | succ n ih =>
      rw [Function.iterate_succ_apply']
      -- Below `d` the value rests; otherwise it stays at or above `d - 1`.
      rcases lt_or_ge ((decay d)^[n] x) d with hlt | hge
      · have hnonneg : 0 ≤ (decay d)^[n] x := le_trans (le_min h0 (by omega)) ih
        rw [decay_of_lt hnonneg hlt]
        exact ih
      · exact (min_le_right _ _).trans (le_decay hd hge)

/-- Each step takes at least one from a value of at least `d`. -/
theorem iterate_decay_le (hd : 0 < d) (h0 : 0 ≤ x) (n : Nat) :
    (decay d)^[n] x ≤ max (d - 1) (x - n) := by
  induction n with
  | zero =>
      rw [Nat.cast_zero, sub_zero]
      exact le_max_right _ _
  | succ n ih =>
      rw [Function.iterate_succ_apply']
      rcases lt_or_ge ((decay d)^[n] x) d with hlt | hge
      · have hnonneg : 0 ≤ (decay d)^[n] x :=
          le_trans (le_min h0 (by omega)) (min_le_iterate_decay hd h0 n)
        rw [decay_of_lt hnonneg hlt]
        exact le_max_of_le_left (by omega)
      · have hstep := decay_lt hd hge
        push_cast
        omega

theorem iterate_decay_lt (hd : 0 < d) (h0 : 0 ≤ x) {n : Nat} (hn : x ≤ n) :
    (decay d)^[n] x < d := by
  have hle := iterate_decay_le hd h0 n
  omega

end ChronosKeeper.Foundations
