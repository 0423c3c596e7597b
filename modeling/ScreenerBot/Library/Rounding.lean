import Mathlib.Algebra.Order.Floor.Div
import Mathlib.Tactic

/-! Quotients of naturals rounded up, beside the exact ones. -/
namespace ScreenerBot.Library

variable {n m d k : ℕ}

theorem le_mul_ceilDiv (n : ℕ) (hd : 0 < d) : n ≤ d * (n ⌈/⌉ d) :=
  (ceilDiv_le_iff_le_mul hd).mp le_rfl

theorem lt_ceilDiv (hd : 0 < d) : k < n ⌈/⌉ d ↔ d * k < n := by
  rw [← not_le, ceilDiv_le_iff_le_mul hd, not_le]

/-- Rounding up adds less than one unit. -/
theorem mul_ceilDiv_lt (n : ℕ) (hd : 0 < d) : d * (n ⌈/⌉ d) < n + d := by
  by_contra! hge
  have hlt : d * (n ⌈/⌉ d - 1) < n := by
    by_contra! hle
    have := (ceilDiv_le_iff_le_mul hd).mpr hle
    have hpos : 0 < n ⌈/⌉ d := by
      by_contra! hzero
      rw [Nat.le_zero.mp hzero, mul_zero] at hge
      omega
    omega
  rw [Nat.mul_sub, mul_one] at hlt
  omega

theorem ceilDiv_add_le (n m : ℕ) (hd : 0 < d) : (n + m) ⌈/⌉ d ≤ n ⌈/⌉ d + m ⌈/⌉ d := by
  rw [ceilDiv_le_iff_le_mul hd, mul_add]
  exact Nat.add_le_add (le_mul_ceilDiv n hd) (le_mul_ceilDiv m hd)

theorem ceilDiv_ceilDiv (n : ℕ) (hd : 0 < d) (hk : 0 < k) : n ⌈/⌉ d ⌈/⌉ k = n ⌈/⌉ (d * k) := by
  apply eq_of_forall_ge_iff
  intro c
  rw [ceilDiv_le_iff_le_mul hk, ceilDiv_le_iff_le_mul hd, ceilDiv_le_iff_le_mul (by positivity),
    mul_assoc]

theorem div_le_ceilDiv (n : ℕ) (hd : 0 < d) : (n : ℚ) / d ≤ (n ⌈/⌉ d : ℕ) := by
  rw [div_le_iff₀ (by exact_mod_cast hd), mul_comm]
  exact_mod_cast le_mul_ceilDiv n hd

theorem le_div_of_lt_ceilDiv (hd : 0 < d) (h : k < n ⌈/⌉ d) : (k : ℚ) ≤ n / d := by
  rw [le_div_iff₀ (by exact_mod_cast hd), mul_comm]
  exact_mod_cast ((lt_ceilDiv hd).mp h).le

end ScreenerBot.Library
