import Mathlib.Data.Nat.Bitwise
import Mathlib.Tactic

/-! Fixed-width integers as the residues their operations leave. -/
namespace ScreenerBot.Library

/-- The signed `width`-bit integer that an unchecked operation leaves of an exact value. -/
def wrapSigned (width : ℕ) (x : ℤ) : ℤ := x.bmod (2 ^ width)

/-- The unsigned `width`-bit integer that an unchecked operation leaves of an exact value. -/
def wrapUnsigned (width : ℕ) (x : ℕ) : ℕ := x % 2 ^ width

abbrev i32 : ℤ → ℤ := wrapSigned 32

/-- A value is left as it is exactly when the width holds it. -/
theorem wrapSigned_eq_self_iff (width : ℕ) {x : ℤ} :
    wrapSigned (width + 1) x = x ↔ -2 ^ width ≤ x ∧ x < 2 ^ width := by
  have hpos : (0 : ℤ) < 2 ^ width := by positivity
  have hdouble : ((2 ^ (width + 1) : ℕ) : ℤ) = 2 * 2 ^ width := by
    push_cast
    ring
  constructor
  · intro h
    have hlow := Int.le_bmod (x := x) (m := 2 ^ (width + 1)) (by positivity)
    have hhigh := Int.bmod_lt (x := x) (m := 2 ^ (width + 1)) (by positivity)
    change x.bmod (2 ^ (width + 1)) = x at h
    rw [h, hdouble] at hlow hhigh
    omega
  · rintro ⟨hlow, hhigh⟩
    apply Int.bmod_eq_of_le
    · rw [hdouble]
      omega
    · rw [hdouble]
      omega

theorem i32_eq_self_iff {x : ℤ} : i32 x = x ↔ -2 ^ 31 ≤ x ∧ x < 2 ^ 31 :=
  wrapSigned_eq_self_iff 31

theorem wrapSigned_bounds (width : ℕ) (x : ℤ) :
    -2 ^ width ≤ wrapSigned (width + 1) x ∧ wrapSigned (width + 1) x < 2 ^ width := by
  have hlow := Int.le_bmod (x := x) (m := 2 ^ (width + 1)) (by positivity)
  have hhigh := Int.bmod_lt (x := x) (m := 2 ^ (width + 1)) (by positivity)
  have hdouble : ((2 ^ (width + 1) : ℕ) : ℤ) = 2 * 2 ^ width := by
    push_cast
    ring
  rw [hdouble] at hlow hhigh
  unfold wrapSigned
  omega

/-- An addition that wraps sees its argument up to a wrap. -/
theorem wrapSigned_wrapSigned_add (width : ℕ) (x y : ℤ) :
    wrapSigned width (wrapSigned width x + y) = wrapSigned width (x + y) :=
  Int.bmod_add_bmod

theorem i32_bounds (x : ℤ) : -2 ^ 31 ≤ i32 x ∧ i32 x < 2 ^ 31 := wrapSigned_bounds 31 x

/-- `i32::checked_add`. -/
def checkedI32 (x : ℤ) : Option ℤ := if -2 ^ 31 ≤ x ∧ x < 2 ^ 31 then some x else none

theorem checkedI32_eq_some {x y : ℤ} :
    checkedI32 x = some y ↔ y = x ∧ -2 ^ 31 ≤ x ∧ x < 2 ^ 31 := by
  unfold checkedI32
  split_ifs with h
  · simp only [Option.some.injEq, h, and_self, and_true]
    exact eq_comm
  · constructor
    · intro h'
      simp at h'
    · intro h'
      exact absurd h'.2 h

/-- Whether a bit of an array of 64-bit words is set, read with a one-bit mask. -/
def wordBit (words : ℕ → ℕ) (bit : ℕ) : Bool := words (bit / 64) &&& 1 <<< (bit % 64) != 0

theorem wordBit_eq_testBit (words : ℕ → ℕ) (bit : ℕ) :
    wordBit words bit = (words (bit / 64)).testBit (bit % 64) := by
  unfold wordBit
  rw [Nat.shiftLeft_eq, Nat.one_mul, Nat.and_two_pow]
  cases h : (words (bit / 64)).testBit (bit % 64) with
  | false => simp
  | true => simp

end ScreenerBot.Library
