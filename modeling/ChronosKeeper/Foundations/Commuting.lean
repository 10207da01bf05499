import ChronosKeeper.Foundations.Run
import Mathlib.Data.List.Perm.Basic
import Mathlib.Data.List.Pairwise

/-!
# Actions that can be reordered

In a system of guarded actions, `ok s a` says that the action `a` can be taken in the state `s`.
`AllOk` says that a list of actions can be taken one after the other. If two independent actions
can be exchanged where they stand next to each other, up to a relation that the guards and the steps
respect (`Exchangeable`), then a list of pairwise independent actions can be taken in any order,
with related results (`Exchangeable.perm`).
-/

set_option autoImplicit false

namespace ChronosKeeper.Foundations

variable {S A : Type}

/-- Each action of the list can be taken when its turn comes. -/
def AllOk (step : S → A → S) (ok : S → A → Prop) : S → List A → Prop
  | _, [] => True
  | s, a :: as => ok s a ∧ AllOk step ok (step s a) as

theorem AllOk.imp {step : S → A → S} {ok ok' : S → A → Prop} (h : ∀ s a, ok s a → ok' s a)
    (as : List A) : ∀ {s : S}, AllOk step ok s as → AllOk step ok' s as := by
  induction as with
  | nil => exact fun _ => trivial
  | cons a as ih =>
      intro s hall
      exact ⟨h s a hall.1, ih hall.2⟩

/-- Adjacent independent actions can be exchanged, up to `same`, in the states that satisfy `P`. -/
structure Exchangeable (step : S → A → S) (ok : S → A → Prop) (same : S → S → Prop)
    (P : S → Prop) (independent : A → A → Prop) : Prop where
  refl : ∀ s, same s s
  trans : ∀ {s t u}, same s t → same t u → same s u
  invariant : ∀ {s a}, P s → ok s a → P (step s a)
  congr : ∀ {s t a}, P s → P t → same s t → ok s a → ok t a ∧ same (step s a) (step t a)
  symm : ∀ {a b}, independent a b → independent b a
  exchange : ∀ {s a b}, P s → independent a b → ok s a → ok (step s a) b →
    ok s b ∧ ok (step s b) a ∧ same (step (step s a) b) (step (step s b) a)

namespace Exchangeable

variable {step : S → A → S} {ok : S → A → Prop} {same : S → S → Prop} {P : S → Prop}
  {independent : A → A → Prop}

/-- From related states the same actions can be taken, with related results. -/
theorem allOk_congr (h : Exchangeable step ok same P independent) (as : List A) :
    ∀ {s t : S}, P s → P t → same s t → AllOk step ok s as →
      AllOk step ok t as ∧ same (run step s as) (run step t as) := by
  induction as with
  | nil => exact fun _ _ hsame _ => ⟨trivial, hsame⟩
  | cons a as ih =>
      intro s t hs ht hsame hall
      obtain ⟨hok, hrest⟩ := hall
      obtain ⟨hok', hsame'⟩ := h.congr hs ht hsame hok
      obtain ⟨hrest', hfinal⟩ := ih (h.invariant hs hok) (h.invariant ht hok') hsame' hrest
      exact ⟨⟨hok', hrest'⟩, hfinal⟩

/-- Pairwise independent actions can be taken in any order, with related results. -/
theorem perm (h : Exchangeable step ok same P independent) {as bs : List A} (hperm : as.Perm bs) :
    ∀ {s : S}, P s → as.Pairwise independent → AllOk step ok s as →
      AllOk step ok s bs ∧ same (run step s as) (run step s bs) := by
  induction hperm with
  | nil => exact fun _ _ _ => ⟨trivial, h.refl _⟩
  | cons a _ ih =>
      intro s hs hpairs hall
      obtain ⟨hok, hrest⟩ := hall
      obtain ⟨hrest', hsame⟩ := ih (h.invariant hs hok) hpairs.of_cons hrest
      exact ⟨⟨hok, hrest'⟩, hsame⟩
  | swap a b l =>
      intro s hs hpairs hall
      obtain ⟨hokb, hoka, hrest⟩ := hall
      have hindependent : independent b a := List.rel_of_pairwise_cons hpairs List.mem_cons_self
      obtain ⟨hoka', hokb', hsame⟩ := h.exchange hs hindependent hokb hoka
      -- The rest of the list starts in related states.
      obtain ⟨hrest', hfinal⟩ := h.allOk_congr l (h.invariant (h.invariant hs hokb) hoka)
        (h.invariant (h.invariant hs hoka') hokb') hsame hrest
      exact ⟨⟨hoka', hokb', hrest'⟩, hfinal⟩
  | trans hfirst _ ih ih' =>
      intro s hs hpairs hall
      obtain ⟨hmiddle, hsame⟩ := ih hs hpairs hall
      have hpairs' := (hfirst.pairwise_iff fun hab => h.symm hab).1 hpairs
      obtain ⟨hlast, hsame'⟩ := ih' hs hpairs' hmiddle
      exact ⟨hlast, h.trans hsame hsame'⟩

end Exchangeable

end ChronosKeeper.Foundations
