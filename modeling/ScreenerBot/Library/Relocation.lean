import Mathlib

/-! Things that go from one place to another one at a time. -/
namespace ScreenerBot.Library

universe u v

variable {κ : Type u} {C : Type v} {src₀ dst₀ src dst : κ → Option C} {keys : Set κ}

/-- Everything is where it was at first, or it left a place of its own in `keys` for a free place of
the same name. -/
structure Relocation (keys : Set κ) (src₀ dst₀ src dst : κ → Option C) : Prop where
  split : ∀ k, src k = src₀ k ∧ dst k = dst₀ k ∨
    k ∈ keys ∧ src k = none ∧ dst₀ k = none ∧ dst k = src₀ k

namespace Relocation

theorem refl (keys : Set κ) (src dst : κ → Option C) : Relocation keys src dst src dst :=
  ⟨fun _ => .inl ⟨rfl, rfl⟩⟩

/-- Nothing is lost: what was at the first place is there or at the second. -/
theorem kept (h : Relocation keys src₀ dst₀ src dst) {k : κ} {c : C} (hc : src₀ k = some c) :
    src k = some c ∨ k ∈ keys ∧ src k = none ∧ dst k = some c := by
  obtain ⟨hsrc, -⟩ | ⟨hk, hsrc, -, hdst⟩ := h.split k
  · exact .inl (hsrc.trans hc)
  · exact .inr ⟨hk, hsrc, hdst.trans hc⟩

/-- Nothing at the second place is replaced. -/
theorem spared (h : Relocation keys src₀ dst₀ src dst) {k : κ} {c : C} (hc : dst₀ k = some c) :
    dst k = some c := by
  obtain ⟨-, hdst⟩ | ⟨-, -, hfree, -⟩ := h.split k
  · exact hdst.trans hc
  · rw [hfree] at hc
    cases hc

/-- The place of what has not left is free, if it was at first. -/
theorem free (h : Relocation keys src₀ dst₀ src dst) {k : κ} (hfree : dst₀ k = none)
    (hsrc : (src k).isSome) : dst k = none := by
  obtain ⟨-, hdst⟩ | ⟨-, hgone, -⟩ := h.split k
  · exact hdst.trans hfree
  · rw [hgone] at hsrc
    cases hsrc

variable [DecidableEq κ]

/-- One thing moves to a place that is free. -/
theorem move (h : Relocation keys src₀ dst₀ src dst) {k : κ} (hk : k ∈ keys)
    (hfree : dst k = none) :
    Relocation keys src₀ dst₀ (Function.update src k none) (Function.update dst k (src k)) := by
  constructor
  intro j
  by_cases hj : j = k
  · subst hj
    rw [Function.update_self, Function.update_self]
    obtain ⟨hsrc, hdst⟩ | ⟨-, hsrc, hfirst, hdst⟩ := h.split j
    · exact .inr ⟨hk, rfl, hdst ▸ hfree, hsrc⟩
    · rw [hsrc]
      refine .inr ⟨hk, rfl, hfirst, ?_⟩
      rw [← hdst, hfree]
  · rw [Function.update_of_ne hj, Function.update_of_ne hj]
    exact h.split j

end Relocation

end ScreenerBot.Library
