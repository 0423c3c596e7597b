import Mathlib.Algebra.Order.Floor.Div
import Mathlib.Logic.Relation
import ScreenerBot.Library.Rounding

/-!
The curve `x * y = k` over naturals, with the reserve that is left rounded up, and the amounts that
pass through fees on the way to it.
-/
namespace ScreenerBot.Library

/-- The output reserve once `s` has reached the input reserve. -/
def reserveLeft (x y s : ℕ) : ℕ := x * y ⌈/⌉ (x + s)

def curveOut (x y s : ℕ) : ℕ := y - reserveLeft x y s

variable {x y s t k : ℕ}

theorem reserveLeft_le (hx : 0 < x) : reserveLeft x y s ≤ y := by
  rw [reserveLeft, ceilDiv_le_iff_le_mul (by omega)]
  exact Nat.mul_le_mul_right y (by omega)

theorem reserveLeft_pos (hx : 0 < x) (hy : 0 < y) : 0 < reserveLeft x y s := by
  rw [reserveLeft, lt_ceilDiv (by omega), mul_zero]
  positivity

theorem curveOut_lt (hx : 0 < x) (hy : 0 < y) : curveOut x y s < y := by
  have := reserveLeft_pos (s := s) hx hy
  unfold curveOut
  omega

/-- The product is kept by what reaches the curve, and by more. -/
theorem product_le (hx : 0 < x) (hk : s ≤ k) : x * y ≤ (x + k) * reserveLeft x y s :=
  calc x * y ≤ (x + s) * reserveLeft x y s := le_mul_ceilDiv _ (by omega)
    _ ≤ (x + k) * reserveLeft x y s := Nat.mul_le_mul_right _ (by omega)

theorem reserveLeft_anti (hx : 0 < x) (hst : s ≤ t) : reserveLeft x y t ≤ reserveLeft x y s := by
  rw [reserveLeft, ceilDiv_le_iff_le_mul (by omega)]
  exact product_le hx hst

theorem curveOut_mono (hx : 0 < x) (hst : s ≤ t) : curveOut x y s ≤ curveOut x y t :=
  Nat.sub_le_sub_left (reserveLeft_anti hx hst) y

/-- A second input leaves at least what both at once leave, whatever the pool kept beside the
first. -/
theorem reserveLeft_again (hx : 0 < x) (hk : s ≤ k) :
    reserveLeft x y (s + t) ≤ reserveLeft (x + k) (reserveLeft x y s) t := by
  rw [reserveLeft, ceilDiv_le_iff_le_mul (by omega)]
  have hfirst : x * y ≤ (x + s) * reserveLeft x y s := product_le hx le_rfl
  have hsecond : (x + k) * reserveLeft x y s ≤
      (x + k + t) * reserveLeft (x + k) (reserveLeft x y s) t := product_le (by omega) le_rfl
  have hle : reserveLeft (x + k) (reserveLeft x y s) t ≤ reserveLeft x y s :=
    reserveLeft_le (by omega)
  obtain ⟨extra, rfl⟩ := Nat.exists_eq_add_of_le hk
  have hextra := Nat.mul_le_mul_left extra hle
  nlinarith

theorem curveOut_again (hx : 0 < x) (hk : s ≤ k) :
    curveOut x y s + curveOut (x + k) (reserveLeft x y s) t ≤ curveOut x y (s + t) := by
  have hfirst := reserveLeft_le (y := y) (s := s) hx
  have hsecond := reserveLeft_le (x := x + k) (y := reserveLeft x y s) (s := t) (by omega)
  have hboth := reserveLeft_again (y := y) (t := t) hx hk
  unfold curveOut
  omega

/-- Rounding the reserve up is rounding the output down. -/
theorem curveOut_eq_div (hx : 0 < x) : curveOut x y s = y * s / (x + s) := by
  apply eq_of_forall_le_iff
  intro c
  rw [Nat.le_div_iff_mul_le (by omega)]
  by_cases hc : c ≤ y
  · obtain ⟨d, rfl⟩ := Nat.exists_eq_add_of_le hc
    have hle : reserveLeft x (c + d) s ≤ c + d := reserveLeft_le hx
    have hleft : c ≤ curveOut x (c + d) s ↔ reserveLeft x (c + d) s ≤ d := by
      unfold curveOut
      omega
    rw [hleft, reserveLeft, ceilDiv_le_iff_le_mul (by omega)]
    constructor <;> intro h <;> nlinarith
  · have hlow : ¬ c ≤ curveOut x y s := by
      unfold curveOut
      omega
    have hhigh : y * s < c * (x + s) :=
      calc y * s ≤ y * (x + s) := Nat.mul_le_mul_left y (by omega)
        _ < c * (x + s) := Nat.mul_lt_mul_of_pos_right (by omega) (by omega)
    exact iff_of_false hlow (not_le.mpr hhigh)

/-- What is left of an amount by a fee that takes at least as much from the parts of the amount as
from the whole, up to a slack. -/
def Superadditive (slack : ℕ) (net : ℕ → ℕ) : Prop := ∀ a b, net a + net b ≤ net (a + b) + slack

namespace Superadditive
variable {slack : ℕ} {f g : ℕ → ℕ}

theorem within (h : Superadditive slack f) {a b : ℕ} (hab : a ≤ b) : f a ≤ f b + slack := by
  obtain ⟨c, rfl⟩ := Nat.exists_eq_add_of_le hab
  have := h a c
  omega

theorem mono (h : Superadditive 0 f) : Monotone f := fun _ _ hab => h.within hab

theorem comp (hf : Superadditive 0 f) (hg : Superadditive 0 g) : Superadditive 0 (f ∘ g) := by
  intro a b
  calc f (g a) + f (g b) ≤ f (g a + g b) := hf _ _
    _ ≤ f (g (a + b)) := hf.mono (hg a b)

/-- A fee of at most the amount, and at most its sum over the parts, leaves at least as much of
the whole. -/
theorem of_fee {fee : ℕ → ℕ} (hle : ∀ a, fee a ≤ a)
    (hsum : ∀ a b, fee (a + b) ≤ fee a + fee b + slack) :
    Superadditive slack fun a => a - fee a := by
  intro a b
  have := hle a
  have := hle b
  have := hsum a b
  dsimp only
  omega

end Superadditive

/-- A fill of `side` that moves the curve by `s`: the pool keeps at least that. -/
def Fills (r : Bool → ℕ) (side : Bool) (s : ℕ) (r' : Bool → ℕ) : Prop :=
  ∃ kept, s ≤ kept ∧ r' side = r side + kept ∧ r' (!side) = reserveLeft (r side) (r !side) s

def reserveProduct (r : Bool → ℕ) : ℕ := r true * r false

theorem reserveProduct_eq (r : Bool → ℕ) (side : Bool) :
    reserveProduct r = r side * r !side := by
  cases side
  · exact Nat.mul_comm _ _
  · rfl

theorem Fills.product {r r' : Bool → ℕ} {side : Bool} (h : Fills r side s r') (hpos : 0 < r side) :
    reserveProduct r ≤ reserveProduct r' := by
  obtain ⟨kept, hkept, hin, hout⟩ := h
  rw [reserveProduct_eq r side, reserveProduct_eq r' side, hin, hout]
  exact product_le hpos hkept

end ScreenerBot.Library
