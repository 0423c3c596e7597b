import Mathlib.Data.List.Basic
import Mathlib.Order.Bounds.Basic
import Mathlib.Tactic

/-!
Bisection for the largest number that passes a test.

The midpoint is a parameter: one computed in machine words need not lie inside the window, and then
the search need not end.

The first hits of a predicate along a sequence of places are found beside it.
-/
namespace ScreenerBot.Library

/-- The search of the window from `low` to `high`, for at most `turns` turns. -/
def searchLargest (P : ℕ → Prop) [DecidablePred P] (midpoint : ℕ → ℕ → ℕ) :
    ℕ → ℕ → ℕ → Option ℕ
  | 0, _, _ => none
  | turns + 1, low, high =>
    if low < high then
      let mid := midpoint low high
      if P mid then searchLargest P midpoint turns mid high
      else searchLargest P midpoint turns low (mid - 1)
    else some low

variable {P : ℕ → Prop} [DecidablePred P] {midpoint : ℕ → ℕ → ℕ} {low high r r' : ℕ}

/-- A search that ended says the same however many turns it is given. -/
theorem searchLargest_unique {turns turns' : ℕ}
    (h : searchLargest P midpoint turns low high = some r)
    (h' : searchLargest P midpoint turns' low high = some r') : r = r' := by
  induction turns generalizing turns' low high with
  | zero => simp [searchLargest] at h
  | succ turns ih =>
    cases turns' with
    | zero => simp [searchLargest] at h'
    | succ turns' =>
      simp only [searchLargest] at h h'
      split at h
      · rename_i hlt
        rw [if_pos hlt] at h'
        split at h
        · rename_i hpass
          rw [if_pos hpass] at h'
          exact ih h h'
        · rename_i hpass
          rw [if_neg hpass] at h'
          exact ih h h'
      · rename_i hlt
        rw [if_neg hlt] at h'
        exact Option.some.inj (h.symm.trans h')

/-- A window whose midpoint is its own lower end, and passes, is searched for ever. -/
theorem searchLargest_stuck (hlt : low < high) (hmid : midpoint low high = low) (hpass : P low)
    (turns : ℕ) : searchLargest P midpoint turns low high = none := by
  induction turns with
  | zero => rfl
  | succ turns ih => simp [searchLargest, hlt, hmid, hpass, ih]

/-- A search whose midpoints lie inside the window ends at the greatest number that passes. -/
theorem searchLargest_greatest (hdown : ∀ a b, a ≤ b → P b → P a)
    (hmid : ∀ a b, a < b → b ≤ high → a < midpoint a b ∧ midpoint a b ≤ b)
    (hle : low ≤ high) (hlow : P low) (hhigh : ∀ q, P q → q ≤ high) :
    ∃ turns r, searchLargest P midpoint turns low high = some r ∧ IsGreatest {q | P q} r := by
  induction hsize : high - low using Nat.strong_induction_on generalizing low high with
  | _ size ih =>
    by_cases hlt : low < high
    · obtain ⟨hinside, htop⟩ := hmid low high hlt le_rfl
      by_cases hpass : P (midpoint low high)
      · obtain ⟨turns, r, hr, hgreatest⟩ := ih (high - midpoint low high) (by omega) hmid htop hpass
          hhigh rfl
        exact ⟨turns + 1, r, by simp [searchLargest, hlt, hpass, hr], hgreatest⟩
      · have hbelow : ∀ q, P q → q ≤ midpoint low high - 1 := by
          intro q hq
          by_contra hgt
          exact hpass (hdown _ _ (by omega) hq)
        obtain ⟨turns, r, hr, hgreatest⟩ := ih (midpoint low high - 1 - low) (by omega)
          (fun a b hab hb => hmid a b hab (by omega)) (by omega) hlow hbelow rfl
        exact ⟨turns + 1, r, by simp [searchLargest, hlt, hpass, hr], hgreatest⟩
    · refine ⟨1, low, by simp [searchLargest, hlt], hlow, fun q hq => ?_⟩
      have := hhigh q hq
      omega

/-- The places `ks` are the first `n` at which the predicate holds, in order; fewer than `n`
only when it holds nowhere else. -/
structure FirstHits (p : ℕ → Prop) (n : ℕ) (ks : List ℕ) : Prop where
  ordered : ks.Pairwise (· < ·)
  few : ks.length ≤ n
  hit : ∀ k ∈ ks, p k
  rest : ∀ k, p k → k ∈ ks ∨ ks.length = n ∧ ∀ j ∈ ks, j < k

namespace FirstHits
variable {p q : ℕ → Prop} {n : ℕ} {ks js : List ℕ}

theorem none_asked (p : ℕ → Prop) : FirstHits p 0 [] :=
  ⟨by simp, by simp, by simp, by simp⟩

theorem nowhere (h : ∀ k, ¬ p k) : FirstHits p n [] :=
  ⟨by simp, by simp, by simp, fun k hk => absurd hk (h k)⟩

theorem congr (h : FirstHits p n ks) (hpq : ∀ k, p k ↔ q k) : FirstHits q n ks :=
  ⟨h.ordered, h.few, fun k hk => (hpq k).mp (h.hit k hk), fun k hk => h.rest k ((hpq k).mpr hk)⟩

/-- A hit at the first place comes before the hits of the places after it. -/
theorem hit_here (h : FirstHits (fun k => p (k + 1)) n ks) (h0 : p 0) :
    FirstHits p (n + 1) (0 :: ks.map (· + 1)) where
  ordered := by
    simp only [List.pairwise_cons, List.mem_map, forall_exists_index, and_imp,
      forall_apply_eq_imp_iff₂, Nat.succ_pos, implies_true, true_and, List.pairwise_map]
    exact h.ordered.imp (by intro a b hab; omega)
  few := by simpa using h.few
  hit := by
    intro k hk
    rcases List.mem_cons.mp hk with rfl | hk
    · exact h0
    · obtain ⟨j, hj, rfl⟩ := List.mem_map.mp hk
      exact h.hit j hj
  rest := by
    intro k hk
    cases k with
    | zero => exact Or.inl (by simp)
    | succ k =>
      rcases h.rest k hk with hmem | ⟨hlen, hlast⟩
      · exact Or.inl (by simpa using hmem)
      · right
        constructor
        · simpa using hlen
        · intro j hj
          rcases List.mem_cons.mp hj with rfl | hj
          · omega
          · obtain ⟨i, hi, rfl⟩ := List.mem_map.mp hj
            have := hlast i hi
            omega

/-- Without a hit at the first place the hits are those of the places after it. -/
theorem miss_here (h : FirstHits (fun k => p (k + 1)) n ks) (h0 : ¬ p 0) :
    FirstHits p n (ks.map (· + 1)) where
  ordered := by
    rw [List.pairwise_map]
    exact h.ordered.imp (by intro a b hab; omega)
  few := by simpa using h.few
  hit := by
    intro k hk
    obtain ⟨j, hj, rfl⟩ := List.mem_map.mp hk
    exact h.hit j hj
  rest := by
    intro k hk
    cases k with
    | zero => exact absurd hk h0
    | succ k =>
      rcases h.rest k hk with hmem | ⟨hlen, hlast⟩
      · exact Or.inl (by simpa using hmem)
      · right
        constructor
        · simpa using hlen
        · intro j hj
          obtain ⟨i, hi, rfl⟩ := List.mem_map.mp hj
          have := hlast i hi
          omega

end FirstHits
end ScreenerBot.Library
