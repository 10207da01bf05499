import Mathlib.Data.List.Basic

/-!
# Texts made of fields

A text of fields with a separator between them is read from its end: `splitLast` splits it at the
last separator, and `takeField` takes off the last field if it begins with the given key. What is
taken off is exactly what was written there (`takeField_eq_some_iff`), as long as it has no
separator in it; what stands before it may have any.
-/

set_option autoImplicit false

namespace ChronosKeeper.Foundations

variable {α : Type} [DecidableEq α] {sep : α} {key xs ys zs rest value : List α}

/-- The parts before and after the last separator. -/
def splitLast (sep : α) : List α → Option (List α × List α)
  | [] => none
  | a :: xs =>
      match splitLast sep xs with
      | some (ys, zs) => some (a :: ys, zs)
      | none => if a = sep then some ([], xs) else none

theorem splitLast_cons_of_some (a : α) (h : splitLast sep xs = some (ys, zs)) :
    splitLast sep (a :: xs) = some (a :: ys, zs) := by
  simp only [splitLast, h]

theorem splitLast_cons_of_none (a : α) (h : splitLast sep xs = none) :
    splitLast sep (a :: xs) = if a = sep then some ([], xs) else none := by
  simp only [splitLast, h]

theorem splitLast_of_notMem (h : sep ∉ xs) : splitLast sep xs = none := by
  induction xs with
  | nil => rfl
  | cons a xs ih =>
      rw [List.mem_cons, not_or] at h
      rw [splitLast_cons_of_none a (ih h.2), if_neg (Ne.symm h.1)]

theorem notMem_of_splitLast (h : splitLast sep xs = none) : sep ∉ xs := by
  induction xs with
  | nil => exact List.not_mem_nil
  | cons a xs ih =>
      cases hsplit : splitLast sep xs with
      | some parts => cases h.symm.trans (splitLast_cons_of_some a hsplit)
      | none =>
          rw [splitLast_cons_of_none a hsplit] at h
          rw [List.mem_cons, not_or]
          refine ⟨fun ha => ?_, ih hsplit⟩
          rw [if_pos ha.symm] at h
          cases h

/-- The split is the one at the last separator. -/
theorem splitLast_eq_some_iff :
    splitLast sep xs = some (ys, zs) ↔ xs = ys ++ sep :: zs ∧ sep ∉ zs := by
  constructor
  · intro h
    induction xs generalizing ys with
    | nil => cases h
    | cons a xs ih =>
        cases hsplit : splitLast sep xs with
        | some parts =>
            -- the last separator is further on
            rw [splitLast_cons_of_some a hsplit] at h
            cases h
            obtain ⟨rfl, hnot⟩ := ih hsplit
            exact ⟨rfl, hnot⟩
        | none =>
            rw [splitLast_cons_of_none a hsplit] at h
            by_cases ha : a = sep
            · rw [if_pos ha] at h
              cases h
              rw [ha]
              exact ⟨rfl, notMem_of_splitLast hsplit⟩
            · rw [if_neg ha] at h
              cases h
  · rintro ⟨rfl, h⟩
    induction ys with
    | nil => exact (splitLast_cons_of_none sep (splitLast_of_notMem h)).trans (if_pos rfl)
    | cons a ys ih => exact splitLast_cons_of_some a ih

/-- What follows the key. -/
def stripKey (key xs : List α) : Option (List α) :=
  if key <+: xs then some (xs.drop key.length) else none

theorem stripKey_eq_some_iff : stripKey key xs = some value ↔ xs = key ++ value := by
  unfold stripKey
  constructor
  · intro h
    split at h
    · rename_i hinitial
      cases h
      obtain ⟨tail, rfl⟩ := hinitial
      rw [List.drop_left]
    · cases h
  · rintro rfl
    rw [if_pos (List.prefix_append key value), List.drop_left]

/-- The last field, without its key, and what stands before its separator. -/
def takeField (sep : α) (key xs : List α) : Option (List α × List α) := do
  let (rest, field) ← splitLast sep xs
  let value ← stripKey key field
  return (rest, value)

theorem takeField_eq_some_iff (hkey : sep ∉ key) :
    takeField sep key xs = some (rest, value) ↔
      xs = rest ++ sep :: (key ++ value) ∧ sep ∉ value := by
  simp only [takeField, Option.bind_eq_bind, Option.pure_def, Option.bind_eq_some_iff,
    Option.some.injEq, Prod.exists, splitLast_eq_some_iff, stripKey_eq_some_iff, Prod.mk.injEq]
  constructor
  · rintro ⟨rest, field, ⟨rfl, hfield⟩, value, rfl, rfl, rfl⟩
    exact ⟨rfl, fun hmem => hfield (List.mem_append_right _ hmem)⟩
  · rintro ⟨rfl, hvalue⟩
    refine ⟨rest, key ++ value, ⟨rfl, ?_⟩, value, rfl, rfl, rfl⟩
    intro hmem
    rcases List.mem_append.1 hmem with hmem | hmem
    · exact hkey hmem
    · exact hvalue hmem

end ChronosKeeper.Foundations
