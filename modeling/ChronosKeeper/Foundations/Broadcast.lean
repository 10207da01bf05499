import Mathlib.Algebra.BigOperators.Group.List.Basic
import Mathlib.Algebra.Order.Ring.Nat
import Mathlib.Data.List.Induction

/-!
# Bounded broadcast channels

`BroadcastChannel` is the interface of a bounded broadcast channel as its senders and one receiver
see it. Values sent before the receiver subscribes are lost. From then on the channel retains the
newest values up to its capacity; a receiver that has fallen behind is told once how many it has
missed and then goes on with the oldest one retained.

`Follows` collects the states that sending, subscribing and receiving lead to, with the events so
far, and `Accounts` says where every value has gone by then: what was received and what is retained
comes in the order it was sent in, the receipts account for the rest, the last value sent is never
skipped, and others only when a full buffer of newer ones is there (`Follows.accounts`). `BroadcastBuffer` is a buffer that
satisfies the interface.
-/

set_option autoImplicit false

namespace ChronosKeeper.Foundations

/-! ## The interface -/

/-- What a receive returns: the next value, the number of values missed, or the end of the
channel. -/
inductive Receipt (α : Type) where
  | value (a : α)
  | lagged (skipped : Nat)
  | closed

/-- A broadcast channel with a single receiver and a sender that is never dropped. -/
structure BroadcastChannel (α σ : Type) where
  capacity : Nat
  opened : σ
  send : α → σ → σ
  subscribe : σ → σ
  /-- The result of a receive, or `none` while it waits. -/
  receive : σ → Option (Receipt α × σ)
  /-- The receiver has subscribed. -/
  subscribed : σ → Bool
  /-- The values retained for the receiver, the oldest first. -/
  retained : σ → List α
  /-- The number of values the receiver has missed and was not told of. -/
  missed : σ → Nat
  capacity_pos : 0 < capacity
  subscribed_opened : subscribed opened = false
  subscribed_send : ∀ a s, subscribed (send a s) = subscribed s
  subscribed_subscribe : ∀ s, subscribed (subscribe s) = true
  subscribed_receive : ∀ {s r s'}, receive s = some (r, s') →
    subscribed s = true ∧ subscribed s' = true
  retained_subscribe : ∀ s, retained (subscribe s) = [] ∧ missed (subscribe s) = 0
  send_of_room : ∀ a {s}, subscribed s = true → (retained s).length < capacity →
    retained (send a s) = retained s ++ [a] ∧ missed (send a s) = missed s
  send_of_full : ∀ a {s}, subscribed s = true → capacity ≤ (retained s).length →
    retained (send a s) = (retained s).tail ++ [a] ∧ missed (send a s) = missed s + 1
  receive_value : ∀ {s a s'}, receive s = some (.value a, s') →
    missed s = 0 ∧ missed s' = 0 ∧ retained s = a :: retained s'
  receive_lagged : ∀ {s n s'}, receive s = some (.lagged n, s') →
    0 < n ∧ missed s = n ∧ missed s' = 0 ∧ retained s' = retained s
  receive_closed : ∀ {s s'}, receive s ≠ some (.closed, s')

/-! ## Events -/

inductive ChannelEvent (α : Type) where
  | send (a : α)
  | subscribe
  | receive (r : Receipt α)

variable {α σ : Type}

/-- How many of the values sent a receipt accounts for. -/
def Receipt.count : Receipt α → Nat
  | .value _ => 1
  | .lagged skipped => skipped
  | .closed => 0

def Receipt.value? : Receipt α → Option α
  | .value a => some a
  | _ => none

/-- How many of the values sent the receipts account for. -/
def consumed (rs : List (Receipt α)) : Nat := (rs.map Receipt.count).sum

/-- The values received. -/
def delivered (rs : List (Receipt α)) : List α := rs.filterMap Receipt.value?

/-- The values sent. -/
def sends (es : List (ChannelEvent α)) : List α :=
  es.filterMap fun e => match e with
    | .send a => some a
    | _ => none

/-- The values sent since the receiver has subscribed. -/
def sentSince (es : List (ChannelEvent α)) : List α :=
  es.foldl (fun sent e => match e with
    | .send a => sent ++ [a]
    | .subscribe => []
    | .receive _ => sent) []

/-- The receipts since the receiver has subscribed. -/
def receipts (es : List (ChannelEvent α)) : List (Receipt α) :=
  es.foldl (fun rs e => match e with
    | .send _ => rs
    | .subscribe => []
    | .receive r => rs ++ [r]) []

section Concat

variable (es : List (ChannelEvent α)) (a : α) (r : Receipt α) (rs : List (Receipt α))

@[simp] theorem sentSince_send : sentSince (es ++ [.send a]) = sentSince es ++ [a] :=
  List.foldl_append

@[simp] theorem sentSince_subscribe : sentSince (es ++ [.subscribe]) = [] := List.foldl_append

@[simp] theorem sentSince_receive : sentSince (es ++ [.receive r]) = sentSince es :=
  List.foldl_append

@[simp] theorem receipts_send : receipts (es ++ [.send a]) = receipts es := List.foldl_append

@[simp] theorem receipts_subscribe : receipts (es ++ [.subscribe]) = [] := List.foldl_append

@[simp] theorem receipts_receive : receipts (es ++ [.receive r]) = receipts es ++ [r] :=
  List.foldl_append

theorem sends_concat (e : ChannelEvent α) : sends (es ++ [e]) = sends es ++ sends [e] :=
  List.filterMap_append

theorem consumed_concat : consumed (rs ++ [r]) = consumed rs + r.count := by
  simp [consumed]

theorem delivered_concat_value : delivered (rs ++ [.value a]) = delivered rs ++ [a] :=
  List.filterMap_append

theorem delivered_concat_lagged (n : Nat) : delivered (rs ++ [.lagged n]) = delivered rs :=
  List.filterMap_append.trans (List.append_nil _)

end Concat

/-- By induction on the events, from the last one. -/
theorem sentSince_sublist (es : List (ChannelEvent α)) : (sentSince es).Sublist (sends es) := by
  induction es using List.reverseRecOn with
  | nil => exact List.Sublist.refl _
  | append_singleton es e ih =>
      rw [sends_concat]
      cases e with
      | send a =>
          rw [sentSince_send]
          exact ih.append (List.Sublist.refl _)
      | subscribe =>
          rw [sentSince_subscribe]
          exact List.nil_sublist _
      | receive r =>
          rw [sentSince_receive]
          exact ih.trans (List.sublist_append_left ..)

/-- An entry of a list is its last one or lies before it. -/
theorem split_concat {l pre post : List α} {a b : α} (h : l ++ [a] = pre ++ b :: post) :
    (pre = l ∧ b = a ∧ post = []) ∨ ∃ post', post = post' ++ [a] ∧ l = pre ++ b :: post' := by
  rcases List.eq_nil_or_concat post with rfl | ⟨post', last, rfl⟩
  · obtain ⟨rfl, hlast⟩ := List.append_inj' h rfl
    cases hlast
    exact Or.inl ⟨rfl, rfl, rfl⟩
  · rw [List.concat_eq_append, ← List.cons_append, ← List.append_assoc] at h
    obtain ⟨rfl, hlast⟩ := List.append_inj' h rfl
    cases hlast
    exact Or.inr ⟨post', List.concat_eq_append, rfl⟩

/-! ## Accounting -/

namespace BroadcastChannel

variable (T : BroadcastChannel α σ)

/-- The states of a channel, with the events that lead to them. -/
inductive Follows : List (ChannelEvent α) → σ → Prop
  | opened : Follows [] T.opened
  | send {es : List (ChannelEvent α)} {s : σ} (h : Follows es s) (a : α) :
      Follows (es ++ [.send a]) (T.send a s)
  | subscribe {es : List (ChannelEvent α)} {s : σ} (h : Follows es s) :
      Follows (es ++ [.subscribe]) (T.subscribe s)
  | receive {es : List (ChannelEvent α)} {s s' : σ} {r : Receipt α} (h : Follows es s)
      (hr : T.receive s = some (r, s')) : Follows (es ++ [.receive r]) s'

/-- Where the values sent since the subscription have gone. -/
structure Accounts (es : List (ChannelEvent α)) (s : σ) : Prop where
  /-- What was received, and then what is retained, is in the order of sending. -/
  inOrder : (delivered (receipts es) ++ T.retained s).Sublist (sentSince es)
  /-- Every value was received, was reported as skipped, is about to be, or is retained. -/
  balance : consumed (receipts es) + T.missed s + (T.retained s).length = (sentSince es).length
  /-- The newest values are retained. -/
  newest : T.retained s <:+ sentSince es
  /-- The last value sent is retained or was received. -/
  latest : (delivered (receipts es) ++ T.retained s).getLast? = (sentSince es).getLast?
  /-- The channel drops values only when it is full. -/
  full : 0 < T.missed s → T.capacity ≤ (T.retained s).length
  /-- When values were reported as skipped, at least as many newer ones as the channel retains had
  been sent. -/
  lag : ∀ pre n post, receipts es = pre ++ .lagged n :: post →
    consumed pre + n + T.capacity ≤ (sentSince es).length

variable {T} {es : List (ChannelEvent α)} {s s' : σ}

namespace Accounts

theorem subscribe (es : List (ChannelEvent α)) (s : σ) :
    T.Accounts (es ++ [.subscribe]) (T.subscribe s) := by
  obtain ⟨hretained, hmissed⟩ := T.retained_subscribe s
  constructor
  · rw [hretained, sentSince_subscribe, receipts_subscribe]
    exact List.Sublist.refl _
  · rw [hretained, hmissed, sentSince_subscribe, receipts_subscribe]
    rfl
  · rw [hretained]
    exact List.nil_suffix
  · rw [hretained, sentSince_subscribe, receipts_subscribe]
    rfl
  · rw [hmissed]
    exact fun h => absurd h (lt_irrefl 0)
  · intro pre n post hsplit
    rw [receipts_subscribe] at hsplit
    cases pre <;> cases hsplit

/-- A value more is sent: it is retained, and the oldest one goes if there is no room. -/
theorem send (h : T.Accounts es s) (hs : T.subscribed s = true) (a : α) :
    T.Accounts (es ++ [.send a]) (T.send a s) := by
  have horder := h.inOrder
  have hbalance := h.balance
  obtain ⟨earlier, hnewest⟩ := h.newest
  have hlag : ∀ pre n post, receipts (es ++ [.send a]) = pre ++ .lagged n :: post →
      consumed pre + n + T.capacity ≤ (sentSince (es ++ [.send a])).length := by
    intro pre n post hsplit
    have hle := h.lag pre n post (receipts_send es a ▸ hsplit)
    rw [sentSince_send, List.length_append]
    omega
  rcases lt_or_ge (T.retained s).length T.capacity with hroom | hfull
  · obtain ⟨hretained, hmissed⟩ := T.send_of_room a hs hroom
    refine ⟨?_, ?_, ⟨earlier, ?_⟩, ?_, ?_, hlag⟩
    · rw [hretained, receipts_send, sentSince_send, ← List.append_assoc]
      exact horder.append (List.Sublist.refl [a])
    · rw [hretained, hmissed, receipts_send, sentSince_send, List.length_append,
        List.length_append]
      omega
    · rw [hretained, sentSince_send, ← hnewest, List.append_assoc]
    · rw [hretained, sentSince_send, ← List.append_assoc, List.getLast?_concat,
        List.getLast?_concat]
    · rw [hmissed]
      exact fun hpos => absurd (h.full hpos) (not_le.2 hroom)
  · obtain ⟨hretained, hmissed⟩ := T.send_of_full a hs hfull
    -- the oldest value is there, as the channel is full
    obtain ⟨oldest, rest, hcons⟩ : ∃ oldest rest, T.retained s = oldest :: rest :=
      List.exists_cons_of_length_pos (lt_of_lt_of_le T.capacity_pos hfull)
    rw [hcons] at horder hbalance hnewest hfull hretained
    rw [List.tail_cons] at hretained
    refine ⟨?_, ?_, ⟨earlier ++ [oldest], ?_⟩, ?_, ?_, hlag⟩
    · rw [hretained, receipts_send, sentSince_send, ← List.append_assoc]
      have hdropped : (delivered (receipts es) ++ rest).Sublist (sentSince es) :=
        ((List.Sublist.refl _).append (List.sublist_cons_self oldest rest)).trans horder
      exact hdropped.append (List.Sublist.refl [a])
    · rw [hretained, hmissed, receipts_send, sentSince_send, List.length_append,
        List.length_append]
      rw [List.length_cons] at hbalance
      simp only [List.length_singleton]
      omega
    · rw [hretained, sentSince_send, ← hnewest]
      simp only [List.append_assoc, List.cons_append, List.nil_append]
    · rw [hretained, sentSince_send, ← List.append_assoc, List.getLast?_concat,
        List.getLast?_concat]
    · intro _
      rw [hretained, List.length_append, List.length_singleton]
      rw [List.length_cons] at hfull
      exact hfull

/-- The oldest value retained is received. -/
theorem receive_value (h : T.Accounts es s) {a : α} (hr : T.receive s = some (.value a, s')) :
    T.Accounts (es ++ [.receive (.value a)]) s' := by
  obtain ⟨hmissed, hmissed', hretained⟩ := T.receive_value hr
  have horder := h.inOrder
  have hbalance := h.balance
  have hlatest := h.latest
  obtain ⟨earlier, hnewest⟩ := h.newest
  rw [hretained] at horder hbalance hlatest hnewest
  refine ⟨?_, ?_, ⟨earlier ++ [a], ?_⟩, ?_, ?_, ?_⟩
  · rw [receipts_receive, sentSince_receive, delivered_concat_value, List.append_assoc]
    exact horder
  · rw [receipts_receive, sentSince_receive, consumed_concat, hmissed']
    rw [hmissed, List.length_cons] at hbalance
    simp only [Receipt.count]
    omega
  · rw [sentSince_receive, ← hnewest]
    simp only [List.append_assoc, List.singleton_append]
  · rw [receipts_receive, sentSince_receive, delivered_concat_value, List.append_assoc]
    exact hlatest
  · rw [hmissed']
    exact fun hpos => absurd hpos (lt_irrefl 0)
  · intro pre n post hsplit
    rw [receipts_receive] at hsplit
    rw [sentSince_receive]
    -- the last receipt is a value, so the report lies before it
    rcases split_concat hsplit with ⟨-, hlast, -⟩ | ⟨post', -, hbefore⟩
    · cases hlast
    · exact h.lag pre n post' hbefore

/-- The receiver is told what it has missed. -/
theorem receive_lagged (h : T.Accounts es s) {k : Nat}
    (hr : T.receive s = some (.lagged k, s')) :
    T.Accounts (es ++ [.receive (.lagged k)]) s' := by
  obtain ⟨hpos, hmissed, hmissed', hretained⟩ := T.receive_lagged hr
  have hbalance := h.balance
  refine ⟨?_, ?_, ?_, ?_, ?_, ?_⟩
  · rw [receipts_receive, sentSince_receive, delivered_concat_lagged, hretained]
    exact h.inOrder
  · rw [receipts_receive, sentSince_receive, consumed_concat, hmissed', hretained]
    simp only [Receipt.count]
    omega
  · rw [hretained, sentSince_receive]
    exact h.newest
  · rw [receipts_receive, sentSince_receive, delivered_concat_lagged, hretained]
    exact h.latest
  · rw [hmissed']
    exact fun hpos' => absurd hpos' (lt_irrefl 0)
  · intro pre n post hsplit
    rw [receipts_receive] at hsplit
    rw [sentSince_receive]
    rcases split_concat hsplit with ⟨rfl, hlast, -⟩ | ⟨post', -, hbefore⟩
    · -- this report: what is retained is newer
      cases hlast
      have hfull := h.full (hmissed ▸ hpos)
      omega
    · exact h.lag pre n post' hbefore

end Accounts

/-- Once the receiver has subscribed, every value is accounted for. -/
theorem Follows.accounts (h : T.Follows es s) : T.subscribed s = true → T.Accounts es s := by
  induction h with
  | opened =>
      intro hs
      rw [T.subscribed_opened] at hs
      cases hs
  | send h a ih =>
      intro hs
      rw [T.subscribed_send] at hs
      exact (ih hs).send hs a
  | subscribe h ih => exact fun _ => .subscribe _ _
  | @receive es s s' r h hr ih =>
      intro _
      have hs := (T.subscribed_receive hr).1
      cases r with
      | value a => exact (ih hs).receive_value hr
      | lagged n => exact (ih hs).receive_lagged hr
      | closed => exact absurd hr T.receive_closed

/-- What is received was sent. -/
theorem Follows.mem_sends_of_receive (h : T.Follows es s) {a : α}
    (hr : T.receive s = some (.value a, s')) : a ∈ sends es := by
  have haccounts := h.accounts (T.subscribed_receive hr).1
  obtain ⟨-, -, hretained⟩ := T.receive_value hr
  have hmem : a ∈ delivered (receipts es) ++ T.retained s := by
    rw [hretained]
    exact List.mem_append_right _ (List.mem_cons_self ..)
  exact (sentSince_sublist es).mem (haccounts.inOrder.mem hmem)

/-- By induction on the states, from the last one. -/
theorem Follows.subscribed (h : T.Follows es s) (hes : .subscribe ∈ es) :
    T.subscribed s = true := by
  induction h with
  | opened => exact absurd hes List.not_mem_nil
  | send h a ih =>
      rw [T.subscribed_send]
      rcases List.mem_append.1 hes with hes | hes
      · exact ih hes
      · cases List.mem_singleton.1 hes
  | subscribe h ih => exact T.subscribed_subscribe _
  | receive h hr ih => exact (T.subscribed_receive hr).2

end BroadcastChannel

/-! ## A bounded buffer -/

/-- A buffer for the values of a channel, with the number of those dropped. -/
structure BroadcastBuffer (α : Type) where
  subscribed : Bool
  retained : List α
  missed : Nat

namespace BroadcastBuffer

def send (capacity : Nat) (a : α) (b : BroadcastBuffer α) : BroadcastBuffer α :=
  if b.subscribed then
    if b.retained.length < capacity then { b with retained := b.retained ++ [a] }
    else { b with retained := b.retained.tail ++ [a], missed := b.missed + 1 }
  else b

def receive (b : BroadcastBuffer α) : Option (Receipt α × BroadcastBuffer α) :=
  if b.subscribed then
    if b.missed = 0 then
      match b.retained with
      | [] => none
      | a :: rest => some (.value a, { b with retained := rest })
    else some (.lagged b.missed, { b with missed := 0 })
  else none

theorem receive_eq_some {b b' : BroadcastBuffer α} {r : Receipt α}
    (h : b.receive = some (r, b')) :
    b.subscribed = true ∧
    ((∃ a, r = .value a ∧ b.missed = 0 ∧ b.retained = a :: b'.retained ∧
        b' = { b with retained := b'.retained }) ∨
      (r = .lagged b.missed ∧ 0 < b.missed ∧ b' = { b with missed := 0 })) := by
  unfold receive at h
  by_cases hsubscribed : b.subscribed = true
  · rw [if_pos hsubscribed] at h
    refine ⟨hsubscribed, ?_⟩
    by_cases hmissed : b.missed = 0
    · rw [if_pos hmissed] at h
      cases hretained : b.retained with
      | nil =>
          rw [hretained] at h
          cases h
      | cons a rest =>
          rw [hretained] at h
          cases h
          exact Or.inl ⟨a, rfl, hmissed, rfl, rfl⟩
    · rw [if_neg hmissed] at h
      cases h
      exact Or.inr ⟨rfl, Nat.pos_of_ne_zero hmissed, rfl⟩
  · rw [if_neg hsubscribed] at h
    cases h

/-- The buffer is a broadcast channel. -/
def channel (capacity : Nat) (hpos : 0 < capacity) : BroadcastChannel α (BroadcastBuffer α) where
  capacity := capacity
  opened := ⟨false, [], 0⟩
  send := send capacity
  subscribe _ := ⟨true, [], 0⟩
  receive := receive
  subscribed := subscribed
  retained := retained
  missed := missed
  capacity_pos := hpos
  subscribed_opened := rfl
  subscribed_send a b := by
    unfold send
    split_ifs <;> rfl
  subscribed_subscribe _ := rfl
  subscribed_receive h := by
    obtain ⟨hs, ⟨a, -, -, -, hb⟩ | ⟨-, -, hb⟩⟩ := receive_eq_some h
    · exact ⟨hs, hb ▸ hs⟩
    · exact ⟨hs, hb ▸ hs⟩
  retained_subscribe _ := ⟨rfl, rfl⟩
  send_of_room a b hs hroom := by
    have hroom' : b.retained.length < capacity := hroom
    unfold send
    rw [if_pos hs, if_pos hroom']
    exact ⟨rfl, rfl⟩
  send_of_full a b hs hfull := by
    have hfull' : ¬ b.retained.length < capacity := not_lt.2 hfull
    unfold send
    rw [if_pos hs, if_neg hfull']
    exact ⟨rfl, rfl⟩
  receive_value h := by
    obtain ⟨-, ⟨a, ha, hmissed, hretained, hb⟩ | ⟨hr, -, -⟩⟩ := receive_eq_some h
    · cases ha
      refine ⟨hmissed, ?_, hretained⟩
      rw [hb]
      exact hmissed
    · cases hr
  receive_lagged h := by
    obtain ⟨-, ⟨a, ha, -⟩ | ⟨hr, hmissed, hb⟩⟩ := receive_eq_some h
    · cases ha
    · cases hr
      subst hb
      exact ⟨hmissed, rfl, rfl, rfl⟩
  receive_closed h := by
    obtain ⟨-, ⟨a, ha, -⟩ | ⟨hr, -⟩⟩ := receive_eq_some h
    · cases ha
    · cases hr

end BroadcastBuffer

end ChronosKeeper.Foundations
