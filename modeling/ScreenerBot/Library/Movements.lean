import ScreenerBot.Library.Keyed
import ScreenerBot.Library.Run
import Mathlib.Algebra.BigOperators.Group.Multiset.Basic
import Mathlib.Algebra.Order.Group.Unbundled.Int
import Mathlib.Tactic

/-! Signed movements of an account: what came in, what went out, and what is left; and the totals of
records kept by a key. -/
namespace ScreenerBot.Library

def gained (ms : List ℤ) : ℤ := (ms.map (max · 0)).sum

def lost (ms : List ℤ) : ℤ := (ms.map fun m => max (-m) 0).sum

@[simp] theorem gained_nil : gained [] = 0 := rfl
@[simp] theorem lost_nil : lost [] = 0 := rfl

@[simp] theorem gained_concat (ms : List ℤ) (m : ℤ) : gained (ms ++ [m]) = gained ms + max m 0 := by
  simp [gained]

@[simp] theorem lost_concat (ms : List ℤ) (m : ℤ) : lost (ms ++ [m]) = lost ms + max (-m) 0 := by
  simp [lost]

theorem lost_nonneg (ms : List ℤ) : 0 ≤ lost ms := by
  refine List.sum_nonneg fun x hx => ?_
  obtain ⟨m, -, rfl⟩ := List.mem_map.mp hx
  exact le_max_right _ _

/-- What came in less what went out is the account's balance. -/
theorem gained_sub_lost (ms : List ℤ) : gained ms - lost ms = ms.sum := by
  induction ms with
  | nil => rfl
  | cons m ms ih =>
    simp only [gained, lost, List.map_cons, List.sum_cons] at ih ⊢
    omega

section Totals

variable {α κ M : Type*} [DecidableEq κ] [AddCommMonoid M]

/-- The total of `f` over the elements of key `k`. -/
def totalAt (key : α → κ) (f : α → M) (l : List α) (k : κ) : M :=
  ((l.filter fun a => key a = k).map f).sum

theorem totalAt_concat (key : α → κ) (f : α → M) (l : List α) (a : α) (k : κ) :
    totalAt key f (l ++ [a]) k = totalAt key f l k + if key a = k then f a else 0 := by
  unfold totalAt
  by_cases h : key a = k
  · simp [h]
  · simp [h]

theorem totalAt_eq_zero {key : α → κ} {f : α → M} {l : List α} {k : κ} (h : ∀ a ∈ l, key a ≠ k) :
    totalAt key f l k = 0 := by
  have hnone : l.filter (fun a => key a = k) = [] := by
    rw [List.filter_eq_nil_iff]
    intro a ha
    simpa using h a ha
  rw [totalAt, hnone, List.map_nil, List.sum_nil]

end Totals

section Changes

variable {α β M σ : Type*} [AddCommGroup M]

/-- A value inserted under a key takes the place of the one there. -/
theorem sum_values_insert [DecidableEq α] (f : β → M) (s : AList fun _ : α => β) (a : α) (b : β) :
    ((values (s.insert a b)).map f).sum =
      ((values s).map f).sum - (s.lookup a).elim 0 f + f b := by
  rw [values_insert, List.map_cons, List.sum_cons]
  cases h : s.lookup a with
  | none =>
    rw [erase_of_lookup_none h, Option.elim_none, sub_zero, add_comm]
  | some b' =>
    rw [((values_perm_of_lookup h).map f).sum_eq, List.map_cons, List.sum_cons, Option.elim_some,
      add_sub_cancel_left, add_comm]

theorem sum_map_sub (f g : α → M) (l : List α) :
    (l.map fun a => f a - g a).sum = (l.map f).sum - (l.map g).sum := by
  simpa using Multiset.sum_map_sub (m := (l : Multiset α))

/-- What the steps of a run change of a quantity adds up to its change over the run. -/
theorem run_total (step : σ → α → σ) (g : σ → M) (change : σ × α → M) :
    ∀ (as : List α) (s : σ),
      (∀ p ∈ visited step s as, change p = g (step p.1 p.2) - g p.1) →
        ((visited step s as).map change).sum = g (as.foldl step s) - g s := by
  intro as
  induction as with
  | nil => intro s _; simp [visited]
  | cons a as ih =>
    intro s h
    have hrest := ih (step s a) fun p hp => h p (List.mem_cons_of_mem _ hp)
    rw [visited, List.map_cons, List.sum_cons, hrest, h (s, a) List.mem_cons_self, List.foldl_cons]
    abel

end Changes

end ScreenerBot.Library
