import Mathlib.Order.Lattice

/-!
# Records of a sequence

The records of a list over a start value are its strict left-to-right maxima: the elements above
the start value and above every element before them. They increase strictly, and the last of them
is the maximum of the list (`getLast_records`).
-/

set_option autoImplicit false

namespace ChronosKeeper.Foundations

variable {α : Type} [LinearOrder α]

/-- The strict left-to-right maxima above `best`. -/
def records (best : α) : List α → List α
  | [] => []
  | x :: xs => if best < x then x :: records x xs else records best xs

theorem records_cons_of_lt {best x : α} {xs : List α} (h : best < x) :
    records best (x :: xs) = x :: records x xs := if_pos h

theorem records_cons_of_le {best x : α} {xs : List α} (h : x ≤ best) :
    records best (x :: xs) = records best xs := if_neg (not_lt.2 h)

/-- The records over a list are those of its head and those above it and the start value. -/
theorem records_cons (best x : α) (xs : List α) :
    records best (x :: xs) = (if best < x then [x] else []) ++ records (max best x) xs := by
  rcases lt_or_ge best x with hlt | hle
  · rw [records_cons_of_lt hlt, if_pos hlt, max_eq_right hlt.le, List.singleton_append]
  · rw [records_cons_of_le hle, if_neg (not_lt.2 hle), max_eq_left hle, List.nil_append]

theorem lt_of_mem_records {best y : α} {xs : List α} (h : y ∈ records best xs) : best < y := by
  induction xs generalizing best with
  | nil => exact absurd h List.not_mem_nil
  | cons x xs ih =>
      rcases lt_or_ge best x with hlt | hle
      · rw [records_cons_of_lt hlt] at h
        rcases List.mem_cons.1 h with rfl | h
        · exact hlt
        · exact hlt.trans (ih h)
      · rw [records_cons_of_le hle] at h
        exact ih h

theorem pairwise_records (best : α) (xs : List α) : (records best xs).Pairwise (· < ·) := by
  induction xs generalizing best with
  | nil => exact List.Pairwise.nil
  | cons x xs ih =>
      rcases lt_or_ge best x with hlt | hle
      · rw [records_cons_of_lt hlt]
        exact List.pairwise_cons.2 ⟨fun _ => lt_of_mem_records, ih x⟩
      · rw [records_cons_of_le hle]
        exact ih best

/-- The last record, or the start value where there is none, is the maximum. -/
theorem getLast_records (best : α) (xs : List α) :
    (records best xs).getLastD best = xs.foldl max best := by
  induction xs generalizing best with
  | nil => rfl
  | cons x xs ih =>
      rw [List.foldl_cons]
      rcases lt_or_ge best x with hlt | hle
      · rw [records_cons_of_lt hlt, List.getLastD_cons, max_eq_right hlt.le]
        exact ih x
      · rw [records_cons_of_le hle, max_eq_left hle]
        exact ih best

end ChronosKeeper.Foundations
