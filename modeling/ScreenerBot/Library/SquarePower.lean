import Mathlib.Tactic

/-!
Powers by repeated squaring in a scale, each product rounded down.

Rounding makes the power depend on how the exponent is written; it still never rises with the
exponent, because the carry of an addition replaces a run of factors by one square of the last.
-/
namespace ScreenerBot.Library

/-- The power of `base`, multiplied to `result` bit by bit, the lowest first. -/
def squarePower (one result base exponent : ℕ) : ℕ :=
  if exponent = 0 then result
  else squarePower one (if exponent % 2 = 1 then result * base / one else result)
    (base * base / one) (exponent / 2)
termination_by exponent
decreasing_by omega

/-- The base after a number of squarings. -/
def repeatedSquare (one base : ℕ) : ℕ → ℕ
  | 0 => base
  | squarings + 1 => repeatedSquare one (base * base / one) squarings

variable {one result base : ℕ}

theorem scaled_le_left (h : base ≤ one) : result * base / one ≤ result := by
  rcases Nat.eq_zero_or_pos one with rfl | hpos
  · simp
  · exact Nat.div_le_of_le_mul (by rw [mul_comm one]; exact Nat.mul_le_mul_left result h)

theorem square_le (h : base ≤ one) : base * base / one ≤ base := scaled_le_left h

namespace squarePower

@[simp] theorem zero (one result base : ℕ) : squarePower one result base 0 = result := by
  rw [squarePower, if_pos rfl]

theorem double (one result base exponent : ℕ) :
    squarePower one result base (2 * exponent) =
      squarePower one result (base * base / one) exponent := by
  rcases Nat.eq_zero_or_pos exponent with rfl | hpos
  · simp
  · rw [squarePower, if_neg (by omega), if_neg (by omega), Nat.mul_div_cancel_left _ (by omega)]

theorem double_succ (one result base exponent : ℕ) :
    squarePower one result base (2 * exponent + 1) =
      squarePower one (result * base / one) (base * base / one) exponent := by
  rw [squarePower, if_neg (by omega), if_pos (by omega)]
  congr 1
  omega

theorem mono {lower upper : ℕ} (h : lower ≤ upper) (base exponent : ℕ) :
    squarePower one lower base exponent ≤ squarePower one upper base exponent := by
  induction exponent using Nat.strong_induction_on generalizing lower upper base with
  | _ exponent ih =>
    obtain ⟨half, rfl | rfl⟩ := Nat.even_or_odd' exponent
    · rcases Nat.eq_zero_or_pos half with rfl | hpos
      · simpa using h
      · rw [double, double]
        exact ih half (by omega) h _
    · rw [double_succ, double_succ]
      exact ih half (by omega) (Nat.div_le_div_right (Nat.mul_le_mul_right base h)) _

/-- A carry: one more in the exponent, against a product that already covers the base. -/
theorem carry (hone : 0 < one) (hbase : base ≤ one) (hresult : base ≤ result) (exponent : ℕ) :
    squarePower one one base (exponent + 1) ≤ squarePower one result base exponent := by
  induction exponent using Nat.strong_induction_on generalizing result base with
  | _ exponent ih =>
    obtain ⟨half, rfl | rfl⟩ := Nat.even_or_odd' exponent
    · rw [double_succ, double, Nat.mul_div_cancel_left _ hone]
      exact mono hresult _ _
    · rw [show 2 * half + 1 + 1 = 2 * (half + 1) by ring, double, double_succ]
      have hcover : base * base / one ≤ result * base / one :=
        Nat.div_le_div_right (Nat.mul_le_mul_right base hresult)
      exact ih half (by omega) ((square_le hbase).trans hbase) hcover

/-- The power does not rise with the exponent. -/
theorem antitone (hone : 0 < one) (hbase : base ≤ one) :
    Antitone (squarePower one one base) :=
  antitone_nat_of_succ_le (carry hone hbase hbase)

end squarePower

namespace repeatedSquare

theorem mono {lower upper : ℕ} (h : lower ≤ upper) (squarings : ℕ) :
    repeatedSquare one lower squarings ≤ repeatedSquare one upper squarings := by
  induction squarings generalizing lower upper with
  | zero => exact h
  | succ squarings ih => exact ih (Nat.div_le_div_right (Nat.mul_le_mul h h))

end repeatedSquare

end ScreenerBot.Library
