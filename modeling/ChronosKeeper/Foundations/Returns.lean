import ChronosKeeper.Foundations.Program

/-!
# Complete traces of a program

An event is an operation with the reply to it. `Program.Returns x t a` says that the program
performs the operations of the trace `t`, gets the replies in it, and returns `a`. The trace of a
`bind` is the one of its first part followed by the one of its second (`returns_bind_iff`), so the
traces of a program are read off from those of its parts.

Where a state answers some of the operations, `Answered` says that it answers those in a trace, one
after the other. A program that never performs an unanswered operation has a run in every
environment (`isSome_run_of_all`).
-/

set_option autoImplicit false

namespace ChronosKeeper.Foundations

/-- An operation performed and the reply to it. -/
structure Event (Op : Type) (Reply : Op → Type) where
  op : Op
  reply : Reply op

namespace Program

variable {Op : Type} {Reply : Op → Type} {α β σ : Type}

/-- With the replies in the trace, the program performs its operations and returns the value. -/
inductive Returns : Program Op Reply α → List (Event Op Reply) → α → Prop
  | done (a : α) : Returns (done a) [] a
  | perform {op : Op} {next : Reply op → Program Op Reply α} (r : Reply op)
      {t : List (Event Op Reply)} {a : α} (h : Returns (next r) t a) :
      Returns (perform op next) (⟨op, r⟩ :: t) a

theorem returns_done_iff {a b : α} {t : List (Event Op Reply)} :
    (done a : Program Op Reply α).Returns t b ↔ t = [] ∧ b = a := by
  constructor
  · rintro ⟨⟩
    exact ⟨rfl, rfl⟩
  · rintro ⟨rfl, rfl⟩
    exact .done b

theorem returns_perform_iff {op : Op} {next : Reply op → Program Op Reply α}
    {t : List (Event Op Reply)} {a : α} :
    (perform op next).Returns t a ↔ ∃ r t', t = ⟨op, r⟩ :: t' ∧ (next r).Returns t' a := by
  constructor
  · rintro (_ | ⟨r, h⟩)
    exact ⟨r, _, rfl, h⟩
  · rintro ⟨r, t', rfl, h⟩
    exact .perform r h

theorem returns_request_iff {op : Op} {t : List (Event Op Reply)} {r : Reply op} :
    (request op : Program Op Reply (Reply op)).Returns t r ↔ t = [⟨op, r⟩] := by
  unfold request
  rw [returns_perform_iff]
  constructor
  · rintro ⟨r', t', rfl, h⟩
    obtain ⟨rfl, rfl⟩ := returns_done_iff.1 h
    rfl
  · rintro rfl
    exact ⟨r, [], rfl, .done r⟩

/-- The trace of a `bind`, by induction on its first part. -/
theorem returns_bind_iff {x : Program Op Reply α} {f : α → Program Op Reply β}
    {t : List (Event Op Reply)} {b : β} :
    (x >>= f).Returns t b ↔
      ∃ t₁ t₂ a, t = t₁ ++ t₂ ∧ x.Returns t₁ a ∧ (f a).Returns t₂ b := by
  constructor
  · intro h
    induction x generalizing t with
    | done a => exact ⟨[], t, a, rfl, .done a, h⟩
    | perform op next ih =>
        rw [perform_bind, returns_perform_iff] at h
        obtain ⟨r, t', rfl, h⟩ := h
        obtain ⟨t₁, t₂, a, rfl, hx, hf⟩ := ih r h
        exact ⟨⟨op, r⟩ :: t₁, t₂, a, rfl, .perform r hx, hf⟩
  · rintro ⟨t₁, t₂, a, rfl, hx, hf⟩
    induction hx with
    | done a => exact hf
    | perform r _ ih => exact .perform r (ih hf)

/-- What every operation of a program satisfies, the operations of its traces satisfy. -/
theorem All.of_returns {P : Op → Prop} {x : Program Op Reply α} (hx : x.All P)
    {t : List (Event Op Reply)} {a : α} (h : x.Returns t a) : ∀ e ∈ t, P e.op := by
  induction h with
  | done a => exact fun _ he => absurd he List.not_mem_nil
  | perform r _ ih =>
      intro e he
      rcases List.mem_cons.1 he with rfl | he
      · exact hx.1
      · exact ih (hx.2 r) e he

/-- A program that performs answered operations only runs to its end. -/
theorem isSome_run_of_all {P : Op → Prop} {answer : (op : Op) → σ → Option (Reply op × σ)}
    {x : Program Op Reply α} (hx : x.All P) (hanswer : ∀ op s, P op → (answer op s).isSome)
    (s : σ) : (x.run answer s).isSome := by
  induction x generalizing s with
  | done a => rfl
  | perform op next ih =>
      obtain ⟨r, hr⟩ := Option.isSome_iff_exists.1 (hanswer op s hx.1)
      rw [run_perform hr]
      exact ih r.1 (hx.2 r.1) r.2

end Program

/-! ## Traces answered by a state -/

section Answered

variable {Op : Type} {Reply : Op → Type} {σ : Type}

/-- The state answers the events of the trace one after the other, and goes from `s` to `s'`. -/
inductive Answered (answers : (op : Op) → σ → Reply op → σ → Prop) :
    List (Event Op Reply) → σ → σ → Prop
  | nil (s : σ) : Answered answers [] s s
  | cons {e : Event Op Reply} {t : List (Event Op Reply)} {s s₁ s' : σ}
      (he : answers e.op s e.reply s₁) (ht : Answered answers t s₁ s') :
      Answered answers (e :: t) s s'

variable {answers : (op : Op) → σ → Reply op → σ → Prop} {t t₁ t₂ : List (Event Op Reply)}
  {s s' : σ}

theorem answered_nil_iff : Answered answers ([] : List (Event Op Reply)) s s' ↔ s' = s := by
  constructor
  · rintro ⟨⟩
    rfl
  · rintro rfl
    exact .nil s'

theorem answered_cons_iff {e : Event Op Reply} :
    Answered answers (e :: t) s s' ↔
      ∃ s₁, answers e.op s e.reply s₁ ∧ Answered answers t s₁ s' := by
  constructor
  · rintro (_ | ⟨he, ht⟩)
    exact ⟨_, he, ht⟩
  · rintro ⟨s₁, he, ht⟩
    exact .cons he ht

theorem answered_append_iff :
    Answered answers (t₁ ++ t₂) s s' ↔
      ∃ s₁, Answered answers t₁ s s₁ ∧ Answered answers t₂ s₁ s' := by
  induction t₁ generalizing s with
  | nil => simp [answered_nil_iff]
  | cons e t₁ ih =>
      simp only [List.cons_append, answered_cons_iff, ih]
      constructor
      · rintro ⟨s₁, he, s₂, h₁, h₂⟩
        exact ⟨s₂, ⟨s₁, he, h₁⟩, h₂⟩
      · rintro ⟨s₂, ⟨s₁, he, h₁⟩, h₂⟩
        exact ⟨s₁, he, s₂, h₁, h₂⟩

end Answered

end ChronosKeeper.Foundations
