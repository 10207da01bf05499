import Mathlib.Algebra.Order.Ring.Int
import Mathlib.Tactic.Ring

/-!
# Fixed-width integers and overflow profiles

`MachineInt t` is the range of an integer type `t` of a given signedness and width; a value
carries the proof that it lies in the range. An arithmetic operation is computed over the
integers and then brought back into the range by `Profile.fit`: the debug profile rejects a
result outside the range, the release profile reduces it modulo `2 ^ bits`.

Wherever the exact result fits, both profiles return it (`Profile.fit_of_inRange`), and whatever
the debug profile returns is exact (`Profile.val_of_fit_debug`). Proofs about code that does not
overflow use these two rules and then work over `Int`.
-/

set_option autoImplicit false

namespace ChronosKeeper.Foundations

/-- An integer type: its signedness and its width in bits. -/
structure IntTy where
  signed : Bool
  bits : Nat
  deriving DecidableEq, Repr

namespace IntTy

/-- The least value of the type. -/
def min (t : IntTy) : Int := if t.signed then -((2 ^ (t.bits - 1) : Nat) : Int) else 0

/-- The greatest value of the type. -/
def max (t : IntTy) : Int :=
  if t.signed then ((2 ^ (t.bits - 1) : Nat) : Int) - 1 else ((2 ^ t.bits : Nat) : Int) - 1

/-- The number of values of the type. -/
def size (t : IntTy) : Int := t.max - t.min + 1

theorem size_pos (t : IntTy) : 0 < t.size := by
  have h1 : 0 < 2 ^ (t.bits - 1) := Nat.two_pow_pos _
  have h2 : 0 < 2 ^ t.bits := Nat.two_pow_pos _
  unfold size max min
  generalize 2 ^ (t.bits - 1) = m at h1
  generalize 2 ^ t.bits = n at h2
  split <;> omega

/-- Membership of an integer in the range of the type. -/
def InRange (t : IntTy) (x : Int) : Prop := t.min ≤ x ∧ x ≤ t.max

instance (t : IntTy) (x : Int) : Decidable (t.InRange x) :=
  inferInstanceAs (Decidable (_ ∧ _))

end IntTy

/-- The values of the integer type `t`. -/
structure MachineInt (t : IntTy) where
  val : Int
  inRange : t.InRange val

namespace MachineInt

variable {t : IntTy}

theorem ext {a b : MachineInt t} (h : a.val = b.val) : a = b := by
  cases a
  cases b
  cases h
  rfl

theorem val_ne {a b : MachineInt t} (h : a ≠ b) : a.val ≠ b.val := fun e => h (ext e)

instance : DecidableEq (MachineInt t) := fun a b =>
  if h : a.val = b.val then isTrue (ext h) else isFalse fun e => h (e ▸ rfl)

instance : LE (MachineInt t) := ⟨fun a b => a.val ≤ b.val⟩
instance : LT (MachineInt t) := ⟨fun a b => a.val < b.val⟩
instance (a b : MachineInt t) : Decidable (a ≤ b) := inferInstanceAs (Decidable (a.val ≤ b.val))
instance (a b : MachineInt t) : Decidable (a < b) := inferInstanceAs (Decidable (a.val < b.val))

theorem le_iff {a b : MachineInt t} : a ≤ b ↔ a.val ≤ b.val := Iff.rfl
theorem lt_iff {a b : MachineInt t} : a < b ↔ a.val < b.val := Iff.rfl

theorem eq_iff {a b : MachineInt t} : a = b ↔ a.val = b.val := ⟨fun h => h ▸ rfl, ext⟩

/-- The value congruent to `x` modulo the size of the type. -/
def wrap (t : IntTy) (x : Int) : MachineInt t where
  val := t.min + (x - t.min) % t.size
  inRange := by
    have h0 := Int.emod_nonneg (x - t.min) (ne_of_gt t.size_pos)
    have h1 := Int.emod_lt_of_pos (x - t.min) t.size_pos
    have hs : t.size = t.max - t.min + 1 := rfl
    constructor <;> omega

/-- A value in the range is its own reduction. -/
theorem val_wrap_of_inRange {x : Int} (h : t.InRange x) : (wrap t x).val = x := by
  have hs : t.size = t.max - t.min + 1 := rfl
  have hmod : (x - t.min) % t.size = x - t.min :=
    Int.emod_eq_of_lt (by have := h.1; omega) (by have := h.2; omega)
  show t.min + (x - t.min) % t.size = x
  omega

/-- The reduction of a value is the value itself. -/
theorem wrap_val (a : MachineInt t) : wrap t a.val = a := ext (val_wrap_of_inRange a.inRange)

/-- The value equal to `x`, when there is one. -/
def checked (t : IntTy) (x : Int) : Option (MachineInt t) :=
  if h : t.InRange x then some ⟨x, h⟩ else none

theorem checked_of_inRange {x : Int} (h : t.InRange x) : checked t x = some ⟨x, h⟩ := dif_pos h

theorem val_of_checked {x : Int} {a : MachineInt t} (h : checked t x = some a) : a.val = x := by
  unfold checked at h
  split at h
  · cases h
    rfl
  · cases h

/-- The value closest to `x`. -/
def clamp (t : IntTy) (x : Int) : MachineInt t where
  val := if x < t.min then t.min else if t.max < x then t.max else x
  inRange := by
    have hpos := t.size_pos
    have hs : t.size = t.max - t.min + 1 := rfl
    unfold IntTy.InRange
    split
    · omega
    · split <;> omega

theorem val_clamp_of_inRange {x : Int} (h : t.InRange x) : (clamp t x).val = x := by
  show (if x < t.min then t.min else if t.max < x then t.max else x) = x
  rw [if_neg (not_lt.2 h.1), if_neg (not_lt.2 h.2)]

/-- Subtraction that stops at the bounds of the type. -/
def saturatingSub (a b : MachineInt t) : MachineInt t := clamp t (a.val - b.val)

instance (n : Nat) : OfNat (MachineInt t) n := ⟨wrap t n⟩

/-- Integer division rounding toward zero. A zero divisor and a quotient outside the range abort
in every profile. -/
def div (a b : MachineInt t) : Option (MachineInt t) :=
  if b.val = 0 then none else checked t (a.val.tdiv b.val)

/-- A quotient rounded toward zero, from a dividend that is not negative. -/
theorem tdiv_spec_of_nonneg {x b : Int} (hx : 0 ≤ x) (hb : 0 < b) :
    b * x.tdiv b ≤ x ∧ x < b * x.tdiv b + b := by
  rw [Int.tdiv_eq_ediv_of_nonneg hx]
  exact ⟨Int.mul_ediv_self_le hb.ne', Int.lt_mul_ediv_self_add hb⟩

/-- A quotient rounded toward zero, from a dividend that is not positive. -/
theorem tdiv_spec_of_nonpos {x b : Int} (hx : x ≤ 0) (hb : 0 < b) :
    x ≤ b * x.tdiv b ∧ b * x.tdiv b - b < x := by
  obtain ⟨h1, h2⟩ := tdiv_spec_of_nonneg (x := -x) (by omega) hb
  rw [Int.neg_tdiv, Int.mul_neg] at h1 h2
  omega

/-- Division by a positive value never leaves the range. -/
theorem inRange_tdiv (a : MachineInt t) {b : Int} (hb : 0 < b) (h0 : t.InRange 0) :
    t.InRange (a.val.tdiv b) := by
  obtain ⟨hlo, hhi⟩ := a.inRange
  have habs := Int.natAbs_tdiv_le_natAbs a.val b
  -- The quotient lies between zero and the dividend.
  rcases le_or_gt 0 a.val with hs | hs
  · have hq : 0 ≤ a.val.tdiv b := Int.tdiv_nonneg hs hb.le
    exact ⟨h0.1.trans hq, by omega⟩
  · have hq : 0 ≤ (-a.val).tdiv b := Int.tdiv_nonneg (by omega) hb.le
    rw [Int.neg_tdiv] at hq
    exact ⟨by omega, le_trans (by omega) h0.2⟩

theorem div_of_pos (a : MachineInt t) {b : MachineInt t} (hb : 0 < b.val) (h0 : t.InRange 0) :
    div a b = some ⟨a.val.tdiv b.val, inRange_tdiv a hb h0⟩ := by
  unfold div
  rw [if_neg (ne_of_gt hb), checked_of_inRange (inRange_tdiv a hb h0)]

end MachineInt

/-- The treatment of overflow: `debug` aborts on it, `release` wraps around. -/
inductive Profile where
  | debug
  | release
  deriving DecidableEq, Repr

namespace Profile

variable {t : IntTy}

/-- Brings the exact result of an operation back into the range of `t`. -/
def fit : Profile → (t : IntTy) → Int → Option (MachineInt t)
  | debug, t, x => MachineInt.checked t x
  | release, t, x => some (MachineInt.wrap t x)

/-- An exact result in the range is returned by every profile. -/
theorem fit_of_inRange (p : Profile) {x : Int} (h : t.InRange x) : p.fit t x = some ⟨x, h⟩ := by
  cases p with
  | debug => exact MachineInt.checked_of_inRange h
  | release => exact congrArg some (MachineInt.ext (MachineInt.val_wrap_of_inRange h))

/-- What the debug profile returns is the exact result. -/
theorem val_of_fit_debug {x : Int} {a : MachineInt t} (h : debug.fit t x = some a) : a.val = x :=
  MachineInt.val_of_checked h

/-- What the debug profile returns shows that the exact result is in the range. -/
theorem inRange_of_fit_debug {x : Int} {a : MachineInt t} (h : debug.fit t x = some a) :
    t.InRange x :=
  val_of_fit_debug h ▸ a.inRange

/-- What is returned is exact if the profile aborts on overflow or the exact result fits. -/
theorem val_of_fit {p : Profile} {x : Int} {a : MachineInt t} (hx : p = debug ∨ t.InRange x)
    (h : p.fit t x = some a) : a.val = x := by
  rcases hx with rfl | hx
  · exact val_of_fit_debug h
  · rw [fit_of_inRange p hx] at h
    cases h
    rfl

def add (p : Profile) (a b : MachineInt t) : Option (MachineInt t) := p.fit t (a.val + b.val)
def sub (p : Profile) (a b : MachineInt t) : Option (MachineInt t) := p.fit t (a.val - b.val)
def mul (p : Profile) (a b : MachineInt t) : Option (MachineInt t) := p.fit t (a.val * b.val)

end Profile

/-! ## The integer types of the code -/

abbrev IntTy.u16 : IntTy := ⟨false, 16⟩
abbrev IntTy.u32 : IntTy := ⟨false, 32⟩
abbrev IntTy.u64 : IntTy := ⟨false, 64⟩
abbrev IntTy.i64 : IntTy := ⟨true, 64⟩
abbrev IntTy.i128 : IntTy := ⟨true, 128⟩

abbrev U16 := MachineInt .u16
abbrev U32 := MachineInt .u32
abbrev U64 := MachineInt .u64
abbrev I64 := MachineInt .i64
abbrev I128 := MachineInt .i128

theorem IntTy.inRange_u32 {x : Int} : IntTy.u32.InRange x ↔ 0 ≤ x ∧ x ≤ 4294967295 := Iff.rfl

theorem IntTy.inRange_i128 {x : Int} :
    IntTy.i128.InRange x ↔ -170141183460469231731687303715884105728 ≤ x ∧
      x ≤ 170141183460469231731687303715884105727 := Iff.rfl

theorem U32.bounds (a : U32) : 0 ≤ a.val ∧ a.val ≤ 4294967295 := IntTy.inRange_u32.1 a.inRange

theorem I128.bounds (a : I128) :
    -170141183460469231731687303715884105728 ≤ a.val ∧
      a.val ≤ 170141183460469231731687303715884105727 := IntTy.inRange_i128.1 a.inRange

end ChronosKeeper.Foundations
