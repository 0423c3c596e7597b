import Mathlib.Algebra.Order.Group.Defs
import Mathlib.Algebra.BigOperators.Group.List.Basic
import Mathlib.Order.Bounds.Basic
import Mathlib.Tactic

/-!
The largest fall of a running total from an earlier high, kept in one pass.

The highs include the total before the first change.
-/
namespace ScreenerBot.Library

/-- A prefix of a list with one more change is a prefix of the list, or the whole. -/
theorem take_concat_cases {i : ℕ} {α : Type*} {changes : List α} {change : α}
    (hi : i ≤ (changes ++ [change]).length) :
    i ≤ changes.length ∧ (changes ++ [change]).take i = changes.take i ∨
      i = changes.length + 1 ∧ (changes ++ [change]).take i = changes ++ [change] := by
  rw [List.length_append, List.length_singleton] at hi
  rcases Nat.lt_or_ge changes.length i with hlt | hle
  · have heq : i = changes.length + 1 := by omega
    exact .inr ⟨heq, List.take_of_length_le (by simp; omega)⟩
  · exact .inl ⟨hle, List.take_append_of_le_length hle⟩

variable {G : Type*} [AddCommGroup G] [LinearOrder G]

/-- A running total, its high, and its largest fall below one. -/
structure Drawdown (G : Type*) where
  total : G
  peak : G
  fall : G

namespace Drawdown

def start : Drawdown G := ⟨0, 0, 0⟩

def add (d : Drawdown G) (change : G) : Drawdown G :=
  let total := d.total + change
  let peak := max d.peak total
  ⟨total, peak, max d.fall (peak - total)⟩

def run (changes : List G) : Drawdown G := changes.foldl add start

theorem run_concat (changes : List G) (change : G) :
    run (changes ++ [change]) = (run changes).add change := by
  unfold run
  rw [List.foldl_append, List.foldl_cons, List.foldl_nil]

theorem run_total (changes : List G) : (run changes).total = changes.sum := by
  induction changes using List.reverseRecOn with
  | nil => simp [run, start]
  | append_singleton changes change ih => simp [run_concat, add, ih]

/-- The high is the highest of the running totals. -/
theorem run_peak (changes : List G) :
    (∀ i ≤ changes.length, (changes.take i).sum ≤ (run changes).peak) ∧
      ∃ i ≤ changes.length, (changes.take i).sum = (run changes).peak := by
  induction changes using List.reverseRecOn with
  | nil => simp [run, start]
  | append_singleton changes change ih =>
    obtain ⟨hle, k, hk, hreached⟩ := ih
    have hpeak : (run (changes ++ [change])).peak =
        max (run changes).peak (changes ++ [change]).sum := by
      rw [run_concat, add]
      simp [run_total]
    rw [hpeak]
    constructor
    · intro i hi
      rcases take_concat_cases hi with ⟨hshort, htake⟩ | ⟨-, htake⟩
      · rw [htake]
        exact (hle i hshort).trans (le_max_left _ _)
      · rw [htake]
        exact le_max_right _ _
    · rcases le_total (run changes).peak (changes ++ [change]).sum with h | h
      · exact ⟨(changes ++ [change]).length, le_rfl, by rw [List.take_length, max_eq_right h]⟩
      · refine ⟨k, by simp; omega, ?_⟩
        rw [List.take_append_of_le_length hk, hreached, max_eq_left h]

variable [IsOrderedAddMonoid G]

/-- The fall is the largest one from a running total to a later one. -/
theorem run_fall (changes : List G) :
    (∀ i j, i ≤ j → j ≤ changes.length →
      (changes.take i).sum - (changes.take j).sum ≤ (run changes).fall) ∧
      ∃ i j, i ≤ j ∧ j ≤ changes.length ∧
        (changes.take i).sum - (changes.take j).sum = (run changes).fall := by
  induction changes using List.reverseRecOn with
  | nil =>
    constructor
    · simp [run, start]
    · exact ⟨0, 0, le_rfl, le_rfl, by simp [run, start]⟩
  | append_singleton changes change ih =>
    obtain ⟨hle, a, b, hab, hb, hreached⟩ := ih
    obtain ⟨hhigh, k, hk, hpeak⟩ := run_peak (changes ++ [change])
    have hfall : (run (changes ++ [change])).fall =
        max (run changes).fall
          ((run (changes ++ [change])).peak - (changes ++ [change]).sum) := by
      rw [run_concat, add]
      simp [run_total]
    rw [hfall]
    constructor
    · intro i j hij hj
      rcases take_concat_cases hj with ⟨hshort, htake⟩ | ⟨-, htake⟩
      · rw [htake, List.take_append_of_le_length (hij.trans hshort)]
        exact (hle i j hij hshort).trans (le_max_left _ _)
      · rw [htake]
        exact (sub_le_sub_right (hhigh i (hij.trans hj)) _).trans (le_max_right _ _)
    · rcases le_total (run changes).fall
        ((run (changes ++ [change])).peak - (changes ++ [change]).sum) with h | h
      · exact ⟨k, (changes ++ [change]).length, hk, le_rfl, by
          rw [List.take_length, hpeak, max_eq_right h]⟩
      · refine ⟨a, b, hab, by simp; omega, ?_⟩
        rw [List.take_append_of_le_length (hab.trans hb), List.take_append_of_le_length hb,
          hreached, max_eq_left h]

end Drawdown

end ScreenerBot.Library
