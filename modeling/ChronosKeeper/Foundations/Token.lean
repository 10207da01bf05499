import ChronosKeeper.Foundations.MachineInt
import Mathlib.Algebra.BigOperators.Group.Finset.Basic
import Mathlib.Algebra.Order.BigOperators.Group.Finset
import Mathlib.Algebra.BigOperators.Group.Finset.Piecewise

/-!
# Fungible tokens

`TokenContract` is the interface of a fungible token as a contract calls it: reading a balance and
transferring an amount. Its fields state what a caller relies on: a transfer moves exactly the
amount from the source to the destination and touches no other balance, an amount is never
negative, and a covered transfer succeeds.

`TokenLedger` is a ledger of balances with a bounded supply that satisfies the interface
(`TokenLedger.contract`). The bound on the supply is what keeps the balance of the receiver in
the range of the integer type.
-/

set_option autoImplicit false

namespace ChronosKeeper.Foundations

/-- The token calls of a host. One state holds the balances of every token. -/
structure TokenContract (Address TokenState : Type) where
  /-- The balance of a holder in a token. -/
  balance : TokenState → (token holder : Address) → I128
  /-- The state after a transfer, or `none` if the call aborts. -/
  transfer : TokenState → (token src dst : Address) → I128 → Option TokenState
  transfer_nonneg : ∀ {st st' token src dst amount},
    transfer st token src dst amount = some st' → 0 ≤ amount.val
  transfer_src : ∀ {st st' token src dst amount},
    transfer st token src dst amount = some st' → src ≠ dst →
      (balance st' token src).val = (balance st token src).val - amount.val
  transfer_dst : ∀ {st st' token src dst amount},
    transfer st token src dst amount = some st' → src ≠ dst →
      (balance st' token dst).val = (balance st token dst).val + amount.val
  transfer_self : ∀ {st st' token src amount},
    transfer st token src src amount = some st' → balance st' token src = balance st token src
  transfer_frame : ∀ {st st' token src dst amount},
    transfer st token src dst amount = some st' → ∀ token' holder,
      ¬ (token' = token ∧ (holder = src ∨ holder = dst)) →
        balance st' token' holder = balance st token' holder
  transfer_covered : ∀ {st token src dst} {amount : I128}, 0 ≤ amount.val →
    amount.val ≤ (balance st token src).val → ∃ st', transfer st token src dst amount = some st'

namespace TokenContract

variable {Address TokenState : Type} (T : TokenContract Address TokenState)

/-- A transfer never lowers the balance of a holder other than its source. -/
theorem balance_le_of_transfer {st st' : TokenState} {token src dst : Address} {amount : I128}
    (h : T.transfer st token src dst amount = some st') {holder : Address} (hne : holder ≠ src)
    (token' : Address) : (T.balance st token' holder).val ≤ (T.balance st' token' holder).val := by
  by_cases hd : token' = token ∧ holder = dst
  · obtain ⟨rfl, rfl⟩ := hd
    have h0 := T.transfer_nonneg h
    have h1 := T.transfer_dst h (Ne.symm hne)
    omega
  · rw [T.transfer_frame h token' holder]
    rintro ⟨rfl, rfl | rfl⟩
    · exact hne rfl
    · exact hd ⟨rfl, rfl⟩

end TokenContract

/-- Balances of every token, none negative, with a total supply that fits the integer type. -/
structure TokenLedger (Address : Type) where
  balance : Address → Address → I128
  nonneg : ∀ token holder, 0 ≤ (balance token holder).val
  supply : ∀ token (S : Finset Address), ∑ a ∈ S, (balance token a).val ≤ IntTy.i128.max

namespace TokenLedger

variable {Address : Type} [DecidableEq Address]

theorem i128_min_le_zero : IntTy.i128.min ≤ 0 := by decide

/-- The ledger in which one holder owns an amount of one token. -/
def holding (token holder : Address) (amount : I128) (h : 0 ≤ amount.val) :
    TokenLedger Address where
  balance t a := if t = token ∧ a = holder then amount else 0
  nonneg t a := by
    split
    · exact h
    · decide
  supply t S := by
    have hle : ∀ a ∈ S, (if t = token ∧ a = holder then amount else (0 : I128)).val ≤
        if a = holder then amount.val else 0 := by
      intro a _
      by_cases ha : a = holder
      · rw [if_pos ha]
        split
        · exact le_refl _
        · exact h
      · rw [if_neg ha, if_neg fun hc => ha hc.2]
        decide
    refine (Finset.sum_le_sum hle).trans ?_
    rw [Finset.sum_ite_eq']
    split
    · exact amount.inRange.2
    · decide

/-- The amount by which a transfer changes the balance of `a`. -/
def delta (src dst : Address) (amount : Int) (a : Address) : Int :=
  (if a = dst then amount else 0) - (if a = src then amount else 0)

theorem sum_add_delta_le (L : TokenLedger Address) (token : Address) {src : Address}
    (dst : Address) {amount : Int} (h0 : 0 ≤ amount) (hs : amount ≤ (L.balance token src).val)
    (S : Finset Address) :
    ∑ a ∈ S, ((L.balance token a).val + delta src dst amount a) ≤ IntTy.i128.max := by
  -- The destination adds the amount and the source takes it away, as far as they are counted.
  have hsum : ∑ a ∈ S, ((L.balance token a).val + delta src dst amount a) =
      ∑ a ∈ S, (L.balance token a).val + (if dst ∈ S then amount else 0) -
        (if src ∈ S then amount else 0) := by
    simp only [delta, Finset.sum_add_distrib, Finset.sum_sub_distrib, Finset.sum_ite_eq']
    omega
  rw [hsum]
  have hS := L.supply token S
  by_cases hsrc : src ∈ S
  · rw [if_pos hsrc]
    split <;> omega
  · -- The amount comes from a source outside of `S`, so the two together bound it.
    have hI := L.supply token (insert src S)
    rw [Finset.sum_insert hsrc] at hI
    rw [if_neg hsrc]
    split <;> omega

theorem add_delta_inRange (L : TokenLedger Address) (token : Address) {src : Address}
    (dst : Address) {amount : Int} (h0 : 0 ≤ amount) (hs : amount ≤ (L.balance token src).val)
    (a : Address) :
    0 ≤ (L.balance token a).val + delta src dst amount a ∧
      IntTy.i128.InRange ((L.balance token a).val + delta src dst amount a) := by
  have hn : 0 ≤ (L.balance token a).val + delta src dst amount a := by
    have ha := L.nonneg token a
    by_cases e : a = src
    · subst e
      unfold delta
      split <;> simp <;> omega
    · unfold delta
      rw [if_neg e]
      split <;> omega
  have hm := L.sum_add_delta_le token dst h0 hs {a}
  rw [Finset.sum_singleton] at hm
  exact ⟨hn, i128_min_le_zero.trans hn, hm⟩

/-- The ledger after moving a covered amount. -/
def move (L : TokenLedger Address) (token src dst : Address) (amount : I128)
    (h : 0 ≤ amount.val ∧ amount.val ≤ (L.balance token src).val) : TokenLedger Address where
  balance t a :=
    if t = token then
      ⟨(L.balance token a).val + delta src dst amount.val a,
        (L.add_delta_inRange token dst h.1 h.2 a).2⟩
    else L.balance t a
  nonneg t a := by
    split
    · exact (L.add_delta_inRange token dst h.1 h.2 a).1
    · exact L.nonneg t a
  supply t S := by
    by_cases ht : t = token
    · simp only [if_pos ht]
      exact L.sum_add_delta_le token dst h.1 h.2 S
    · simp only [if_neg ht]
      exact L.supply t S

/-- A transfer aborts on a negative amount and on an amount above the balance of the source. -/
def transfer (L : TokenLedger Address) (token src dst : Address) (amount : I128) :
    Option (TokenLedger Address) :=
  if h : 0 ≤ amount.val ∧ amount.val ≤ (L.balance token src).val then
    some (L.move token src dst amount h)
  else none

theorem transfer_eq_some {L L' : TokenLedger Address} {token src dst : Address} {amount : I128} :
    L.transfer token src dst amount = some L' ↔
      ∃ h, L.move token src dst amount h = L' := by
  unfold transfer
  by_cases h : 0 ≤ amount.val ∧ amount.val ≤ (L.balance token src).val
  · simp [h]
  · simp [h]

theorem val_move (L : TokenLedger Address) {token src dst : Address} {amount : I128} (h)
    (a : Address) : ((L.move token src dst amount h).balance token a).val =
      (L.balance token a).val + delta src dst amount.val a := by
  simp only [move, if_true]

theorem balance_move_of_ne (L : TokenLedger Address) {token src dst : Address} {amount : I128} (h)
    {t a : Address} (hne : ¬ (t = token ∧ (a = src ∨ a = dst))) :
    (L.move token src dst amount h).balance t a = L.balance t a := by
  by_cases ht : t = token
  · subst ht
    have hs : a ≠ src := fun e => hne ⟨rfl, Or.inl e⟩
    have hd : a ≠ dst := fun e => hne ⟨rfl, Or.inr e⟩
    apply MachineInt.ext
    rw [val_move, delta, if_neg hs, if_neg hd]
    omega
  · simp only [move, if_neg ht]

/-- The ledger satisfies the token interface. -/
def contract (Address : Type) [DecidableEq Address] :
    TokenContract Address (TokenLedger Address) where
  balance := TokenLedger.balance
  transfer := TokenLedger.transfer
  transfer_nonneg h := by
    obtain ⟨h, -⟩ := transfer_eq_some.1 h
    exact h.1
  transfer_src h hne := by
    obtain ⟨h, rfl⟩ := transfer_eq_some.1 h
    rw [val_move, delta, if_neg hne, if_pos rfl]
    omega
  transfer_dst h hne := by
    obtain ⟨h, rfl⟩ := transfer_eq_some.1 h
    rw [val_move, delta, if_pos rfl, if_neg (Ne.symm hne)]
    omega
  transfer_self h := by
    obtain ⟨h, rfl⟩ := transfer_eq_some.1 h
    apply MachineInt.ext
    rw [val_move, delta, if_pos rfl]
    omega
  transfer_frame h t a hne := by
    obtain ⟨hc, rfl⟩ := transfer_eq_some.1 h
    exact balance_move_of_ne _ hc hne
  transfer_covered h0 hs := ⟨_, transfer_eq_some.2 ⟨⟨h0, hs⟩, rfl⟩⟩

end TokenLedger

end ChronosKeeper.Foundations
