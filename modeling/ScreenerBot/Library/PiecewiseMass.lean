import Mathlib.Order.Interval.Set.Defs
import Mathlib.Tactic

/-!
Mass of a density that is constant on the pieces of a line.

A piece is given by its upper end and its density; it starts where the piece before it ends. The
first piece has no lower end and the last one no upper end. The mass between two points is
measured by a function of the points, the length by the identity.
-/
namespace ScreenerBot.Library

variable {α R : Type*} [LinearOrder α] [Ring R]

/-- The mass from `p` to `q`. -/
def pieceMass (φ : α → R) : List (α × R) → α → α → R
  | [], _, _ => 0
  | [(_, w)], p, q => w * (φ q - φ p)
  | (hi, w) :: next :: rest, p, q =>
    w * (φ (min q hi) - φ (min p hi)) + pieceMass φ (next :: rest) (max p hi) (max q hi)

namespace pieceMass
variable (φ : α → R)

@[simp] theorem nil (p q : α) : pieceMass φ [] p q = 0 := rfl

@[simp] theorem singleton (hi : α) (w : R) (p q : α) :
    pieceMass φ [(hi, w)] p q = w * (φ q - φ p) := rfl

theorem cons {rest : List (α × R)} (hi : α) (w : R) (h : rest ≠ []) (p q : α) :
    pieceMass φ ((hi, w) :: rest) p q =
      w * (φ (min q hi) - φ (min p hi)) + pieceMass φ rest (max p hi) (max q hi) := by
  cases rest with
  | nil => exact absurd rfl h
  | cons next rest => rfl

@[simp] theorem self (cs : List (α × R)) (p : α) : pieceMass φ cs p p = 0 := by
  induction cs generalizing p with
  | nil => simp
  | cons c rest ih =>
    by_cases h : rest = []
    · subst h
      simp [pieceMass]
    · rw [cons φ _ _ h, ih]
      simp

/-- The mass of a way is the sum of its parts. -/
theorem add (cs : List (α × R)) (p q r : α) :
    pieceMass φ cs p q + pieceMass φ cs q r = pieceMass φ cs p r := by
  induction cs generalizing p q r with
  | nil => simp
  | cons c rest ih =>
    by_cases h : rest = []
    · subst h
      show c.2 * (φ q - φ p) + c.2 * (φ r - φ q) = c.2 * (φ r - φ p)
      noncomm_ring
    · rw [cons φ _ _ h, cons φ _ _ h, cons φ _ _ h, ← ih (max p c.1) (max q c.1) (max r c.1)]
      noncomm_ring

/-- Between two points of one piece only its density counts. -/
theorem within {cs : List (α × R)} {i : ℕ} {hi : α} {w : R} {p q : α}
    (hpiece : cs[i]? = some (hi, w)) (hbefore : ∀ j < i, ∀ c ∈ cs[j]?, c.1 ≤ p) (hpq : p ≤ q)
    (hend : q ≤ hi ∨ i + 1 = cs.length) : pieceMass φ cs p q = w * (φ q - φ p) := by
  induction cs generalizing i with
  | nil => simp at hpiece
  | cons c rest ih =>
    by_cases h : rest = []
    · subst h
      obtain rfl : i = 0 := by
        have := (List.getElem?_eq_some_iff.mp hpiece).1
        simp only [List.length_singleton] at this
        omega
      obtain rfl : c = (hi, w) := by simpa using hpiece
      simp
    · rw [cons φ _ _ h]
      cases i with
      | zero =>
        obtain rfl : c = (hi, w) := by simpa using hpiece
        have hqhi : q ≤ hi := by
          apply hend.resolve_right
          have := List.length_pos_of_ne_nil h
          simp only [List.length_cons]
          omega
        rw [min_eq_left hqhi, min_eq_left (hpq.trans hqhi), max_eq_right hqhi,
          max_eq_right (hpq.trans hqhi), self, add_zero]
      | succ i =>
        have hcp : c.1 ≤ p := hbefore 0 (by omega) c (by simp)
        have hrest : pieceMass φ rest p q = w * (φ q - φ p) := by
          apply ih (i := i)
          · simpa using hpiece
          · intro j hj d hd
            exact hbefore (j + 1) (by omega) d (by simpa using hd)
          · simpa using hend
        rw [min_eq_right hcp, min_eq_right (hcp.trans hpq), max_eq_left hcp,
          max_eq_left (hcp.trans hpq), hrest, sub_self, mul_zero, zero_add]

section Ordered
variable [PartialOrder R] [IsOrderedRing R] {φ}

/-- Ahead there is no negative mass. -/
theorem nonneg {cs : List (α × R)} {p q : α} (hw : ∀ c ∈ cs, 0 ≤ c.2)
    (hφ : MonotoneOn φ (Set.Ici p)) (hpq : p ≤ q) : 0 ≤ pieceMass φ cs p q := by
  induction cs generalizing p q with
  | nil => simp
  | cons c rest ih =>
    rw [List.forall_mem_cons] at hw
    by_cases h : rest = []
    · subst h
      show 0 ≤ c.2 * (φ q - φ p)
      have := hφ (Set.mem_Ici.mpr le_rfl) (Set.mem_Ici.mpr hpq) hpq
      exact mul_nonneg hw.1 (sub_nonneg.mpr this)
    · rw [cons φ _ _ h]
      apply add_nonneg
      · apply mul_nonneg hw.1
        rw [sub_nonneg]
        rcases le_total p c.1 with hp | hp
        · apply hφ
          · simp [hp]
          · simp [hp, hpq]
          · exact min_le_min_right _ hpq
        · rw [min_eq_right hp, min_eq_right (hp.trans hpq)]
      · apply ih hw.2
        · exact hφ.mono (Set.Ici_subset_Ici.mpr (le_max_left _ _))
        · exact max_le_max_right _ hpq

/-- A longer way has no less mass. -/
theorem anti_left {cs : List (α × R)} {p q r : α} (hw : ∀ c ∈ cs, 0 ≤ c.2)
    (hφ : MonotoneOn φ (Set.Ici p)) (hpq : p ≤ q) : pieceMass φ cs q r ≤ pieceMass φ cs p r := by
  rw [← add φ cs p q r]
  exact le_add_of_nonneg_left (nonneg hw hφ hpq)

end Ordered
end pieceMass
end ScreenerBot.Library
