import Mathlib

/-!
Giving up part of a list in its order: what spills over once a bound is passed, and what is taken
from the front until enough is taken.
-/
namespace ScreenerBot.Library

variable {α σ : Type*}

/-- The first element past the bound at what was kept before it, and all that follow. -/
def spill (past : σ → α → Bool) (add : σ → α → σ) : σ → List α → List α
  | _, [] => []
  | s, a :: l => if past s a then a :: l else spill past add (add s a) l

theorem spill_suffix (past : σ → α → Bool) (add : σ → α → σ) (s : σ) (l : List α) :
    spill past add s l <:+ l := by
  induction l generalizing s with
  | nil => exact List.suffix_rfl
  | cons a l ih =>
    rw [spill]
    split_ifs
    · exact List.suffix_rfl
    · exact (ih (add s a)).trans (List.suffix_cons a l)

/-- Of a shorter list, under a looser bound, nothing spills that did not spill before. -/
theorem spill_subset {past past' : σ → α → Bool} {add : σ → α → σ} {R : σ → σ → Prop}
    (hpast : ∀ s' s a, R s' s → past' s' a = true → past s a = true)
    (hadd : ∀ s' s a, R s' s → R (add s' a) (add s a)) (hskip : ∀ s' s a, R s' s → R s' (add s a))
    {l' l : List α} (hsub : l'.Sublist l) {s' s : σ} (h : R s' s) :
    ∀ a ∈ spill past' add s' l', a ∈ spill past add s l := by
  induction hsub generalizing s' s with
  | slnil => exact fun a ha => ha
  | @cons l' l b hsub ih =>
    intro a ha
    rw [spill]
    split_ifs
    · exact List.mem_cons_of_mem b (hsub.subset ((spill_suffix _ _ _ _).subset ha))
    · exact ih (hskip s' s b h) a ha
  | @cons_cons l' l b hsub ih =>
    intro a ha
    rw [spill] at ha ⊢
    split_ifs with hb
    · apply (hsub.cons_cons b).subset
      split_ifs at ha
      · exact ha
      · exact List.mem_cons_of_mem b ((spill_suffix _ _ _ _).subset ha)
    · rw [if_neg fun hb' => hb (hpast s' s b h hb')] at ha
      exact ih (hadd s' s b h) a ha

/-- Takes from the front until what is taken is enough. -/
def takeUntil (enough : ℕ → Bool) (size : α → ℕ) : ℕ → List α → List α
  | _, [] => []
  | taken, a :: l => if enough taken then [] else a :: takeUntil enough size (taken + size a) l

theorem takeUntil_initial (enough : ℕ → Bool) (size : α → ℕ) (taken : ℕ) (l : List α) :
    takeUntil enough size taken l <+: l := by
  induction l generalizing taken with
  | nil => exact List.prefix_rfl
  | cons a l ih =>
    rw [takeUntil]
    split_ifs
    · exact List.nil_prefix
    · exact List.prefix_cons_inj a |>.mpr (ih _)

variable {enough : ℕ → Bool} {size : α → ℕ} {l : List α}

/-- Whatever is taken was needed: what was taken before it was not enough. -/
theorem takeUntil_needed {taken : ℕ} {before after : List α} {a : α}
    (h : takeUntil enough size taken l = before ++ a :: after) :
    enough (taken + (before.map size).sum) = false := by
  induction before generalizing taken l with
  | nil =>
    cases l with
    | nil => cases h
    | cons b l =>
      rw [takeUntil] at h
      split_ifs at h with henough
      · cases h
      · simpa using henough
  | cons b before ih =>
    cases l with
    | nil => cases h
    | cons c l =>
      rw [takeUntil] at h
      split_ifs at h
      · cases h
      · obtain ⟨rfl, htail⟩ := List.cons.inj h
        rw [List.map_cons, List.sum_cons, ← Nat.add_assoc]
        exact ih htail

/-- Where something is left, enough was taken. -/
theorem takeUntil_enough {taken : ℕ} (h : takeUntil enough size taken l ≠ l) :
    enough (taken + ((takeUntil enough size taken l).map size).sum) = true := by
  induction l generalizing taken with
  | nil => exact absurd rfl h
  | cons a l ih =>
    rw [takeUntil] at h ⊢
    split_ifs at h ⊢ with henough
    · simpa using henough
    · rw [List.map_cons, List.sum_cons, ← Nat.add_assoc]
      exact ih fun he => h (by rw [he])

end ScreenerBot.Library
