import Mathlib.Data.Finmap
import Mathlib.Algebra.Order.BigOperators.Group.Multiset
import Mathlib.Algebra.Order.Ring.Int
import Mathlib.Tactic.Ring

/-!
# Totals over finite maps

A key-value store is Mathlib's `Finmap` with a constant value type. `total w m` adds the weight
`w v` of every stored value. Writing under a free key adds the weight of the new value
(`total_insert_of_none`); overwriting a value exchanges its weight for that of the new one
(`total_insert_of_some`). These two rules are what an accounting argument over a store needs.
-/

set_option autoImplicit false

namespace ChronosKeeper.Foundations

/-- A finite map from `K` to `V`. -/
abbrev FiniteMap (K V : Type) := Finmap fun _ : K => V

namespace FiniteMap

variable {K V : Type}

/-- The sum of the weights of the stored values. -/
def total (w : V → Int) (m : FiniteMap K V) : Int := (m.entries.map fun e => w e.2).sum

variable [DecidableEq K]

theorem lookup_insert_eq (m : FiniteMap K V) (a b : K) (v : V) :
    (m.insert a v).lookup b = if b = a then some v else m.lookup b := by
  by_cases h : b = a
  · subst h
    rw [if_pos rfl, Finmap.lookup_insert]
  · rw [if_neg h, Finmap.lookup_insert_of_ne _ h]

/-- Writing never removes a key. -/
theorem exists_lookup_insert {m : FiniteMap K V} {a : K} {v : V} (h : m.lookup a = some v)
    (b : K) (u : V) : ∃ v', (m.insert b u).lookup a = some v' := by
  rw [lookup_insert_eq]
  split
  · exact ⟨u, rfl⟩
  · exact ⟨v, h⟩

/-- Overwriting a key is erasing it and writing it afresh. -/
theorem insert_eq_insert_erase (m : FiniteMap K V) (a : K) (v : V) :
    m.insert a v = (m.erase a).insert a v := by
  apply Finmap.ext_lookup
  intro b
  rw [lookup_insert_eq, lookup_insert_eq]
  by_cases h : b = a
  · rw [if_pos h, if_pos h]
  · rw [if_neg h, if_neg h, Finmap.lookup_erase_ne h]

/-- A present value can be written back without effect. -/
theorem insert_lookup_self {m : FiniteMap K V} {a : K} {v : V} (h : m.lookup a = some v) :
    m.insert a v = m := by
  apply Finmap.ext_lookup
  intro b
  rw [lookup_insert_eq]
  by_cases hb : b = a
  · rw [if_pos hb, hb, h]
  · rw [if_neg hb]

/-- A value written under a free key adds its weight. -/
theorem total_insert_of_none (w : V → Int) {m : FiniteMap K V} {a : K} (v : V)
    (h : m.lookup a = none) : total w (m.insert a v) = total w m + w v := by
  unfold total
  rw [Finmap.entries_insert_of_notMem (Finmap.lookup_eq_none.1 h), Multiset.map_cons,
    Multiset.sum_cons, add_comm]

/-- A value written over another one exchanges the weights. -/
theorem total_insert_of_some (w : V → Int) {m : FiniteMap K V} {a : K} {u : V} (v : V)
    (h : m.lookup a = some u) : total w (m.insert a v) = total w m - w u + w v := by
  -- Both the old and the new map are the erased one with a value written under a free key.
  have herase : (m.erase a).lookup a = none := Finmap.lookup_erase a m
  have hold : total w m = total w (m.erase a) + w u := by
    rw [← total_insert_of_none w u herase, ← insert_eq_insert_erase, insert_lookup_self h]
  have hnew : total w (m.insert a v) = total w (m.erase a) + w v := by
    rw [insert_eq_insert_erase, total_insert_of_none w v herase]
  rw [hold, hnew]
  ring

/-- A value of unchanged weight written over another one keeps the total. -/
theorem total_insert_of_eq (w : V → Int) {m : FiniteMap K V} {a : K} {u v : V}
    (h : m.lookup a = some u) (hw : w v = w u) : total w (m.insert a v) = total w m := by
  rw [total_insert_of_some w v h, hw]
  ring

theorem lookup_of_mem_entries {m : FiniteMap K V} {e : Σ _ : K, V} (h : e ∈ m.entries) :
    m.lookup e.1 = some e.2 :=
  Finmap.lookup_eq_some_iff.2 h

/-- Every stored value satisfies `P`. -/
def All (P : V → Prop) (m : FiniteMap K V) : Prop := ∀ a v, m.lookup a = some v → P v

theorem all_iff_entries {P : V → Prop} {m : FiniteMap K V} :
    All P m ↔ ∀ e ∈ m.entries, P e.2 := by
  constructor
  · intro h e he
    exact h e.1 e.2 (lookup_of_mem_entries he)
  · intro h a v hv
    exact h ⟨a, v⟩ (Finmap.lookup_eq_some_iff.1 hv)

instance (P : V → Prop) [DecidablePred P] (m : FiniteMap K V) : Decidable (All P m) :=
  decidable_of_iff _ all_iff_entries.symm

theorem All.insert {P : V → Prop} {m : FiniteMap K V} (h : All P m) {v : V} (hv : P v) (a : K) :
    All P (m.insert a v) := by
  intro b u hu
  rw [lookup_insert_eq] at hu
  split at hu
  · cases hu
    exact hv
  · exact h b u hu

end FiniteMap

end ChronosKeeper.Foundations
