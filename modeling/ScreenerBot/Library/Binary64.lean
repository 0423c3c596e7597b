import Mathlib.Data.Int.Log
import Mathlib.Tactic

/-!
Binary floating point of 53 bits: the rounding of a rational to the nearest value, ties to even,
and arithmetic on the values.

A rounding never crosses a value that is itself representable. Zero has one sign here.
-/
namespace ScreenerBot.Library

/-- The nearest integer, the even one of two. -/
def nearestEven (x : ℚ) : ℤ :=
  let rest := x - ⌊x⌋
  if rest < 1 / 2 then ⌊x⌋
  else if 1 / 2 < rest then ⌊x⌋ + 1
  else if Even ⌊x⌋ then ⌊x⌋ else ⌊x⌋ + 1

/-- The exponent of the last bit kept of a number. -/
def lastBit (x : ℚ) : ℤ := max (Int.log 2 |x| - 52) (-1074)

/-- The nearest value, were the exponent not bounded above. -/
def roundBinary64 (x : ℚ) : ℚ := nearestEven (x / 2 ^ lastBit x) * 2 ^ lastBit x

inductive F64 where
  | nan
  | infinite (negative : Bool)
  | finite (value : ℚ)
  deriving DecidableEq, Repr

namespace F64

/-- The value of a number, infinite where it is out of range. -/
def ofRat (x : ℚ) : F64 :=
  if |roundBinary64 x| < 2 ^ 1024 then finite (roundBinary64 x) else infinite (x < 0)

def isNan : F64 → Bool
  | nan => true
  | _ => false

/-- The order of values. It holds of no pair with `nan`. -/
def le : F64 → F64 → Bool
  | finite x, finite y => x ≤ y
  | infinite true, infinite _ => true
  | infinite true, finite _ => true
  | infinite false, infinite negative => !negative
  | infinite false, finite _ => false
  | finite _, infinite negative => !negative
  | nan, _ => false
  | _, nan => false

def mul : F64 → F64 → F64
  | finite x, finite y => ofRat (x * y)
  | finite x, infinite negative => if x = 0 then nan else infinite (negative != decide (x < 0))
  | infinite negative, finite x => if x = 0 then nan else infinite (negative != decide (x < 0))
  | infinite a, infinite b => infinite (a != b)
  | nan, _ => nan
  | _, nan => nan

def div : F64 → F64 → F64
  | finite x, finite y =>
    if y ≠ 0 then ofRat (x / y) else if x = 0 then nan else infinite (x < 0)
  | finite _, infinite _ => finite 0
  | infinite negative, finite x => infinite (negative != decide (x < 0))
  | infinite _, infinite _ => nan
  | nan, _ => nan
  | _, nan => nan

/-- Towards zero. -/
def trunc : F64 → F64
  | finite x => finite (if 0 ≤ x then ⌊x⌋ else ⌈x⌉)
  | x => x

end F64

theorem nearestEven_mem (x : ℚ) : nearestEven x = ⌊x⌋ ∨ nearestEven x = ⌊x⌋ + 1 := by
  unfold nearestEven
  simp only
  split_ifs <;> simp

@[simp] theorem nearestEven_intCast (n : ℤ) : nearestEven n = n := by
  unfold nearestEven
  simp

/-- Rounding passes no integer. -/
theorem nearestEven_le {x : ℚ} {n : ℤ} (h : x ≤ n) : nearestEven x ≤ n := by
  rcases h.lt_or_eq with hlt | rfl
  · have hfloor : ⌊x⌋ < n := Int.floor_lt.mpr hlt
    rcases nearestEven_mem x with heq | heq
    · omega
    · omega
  · simp

theorem le_nearestEven {x : ℚ} {n : ℤ} (h : (n : ℚ) ≤ x) : n ≤ nearestEven x := by
  have hfloor : n ≤ ⌊x⌋ := Int.le_floor.mpr h
  rcases nearestEven_mem x with heq | heq
  · omega
  · omega

/-- The values that 53 bits hold. -/
def Representable (v : ℚ) : Prop := ∃ m e : ℤ, v = m * 2 ^ e ∧ |m| ≤ 2 ^ 53 ∧ -1074 ≤ e

theorem representable_natCast {n : ℕ} (h : n ≤ 2 ^ 53) : Representable n :=
  ⟨n, 0, by simp, by rw [Int.abs_natCast]; exact_mod_cast h, by norm_num⟩

section Round
variable {x v : ℚ}

/-- Below a number that is above it, a representable value is a multiple of the last bit, or no
larger than the leading bit. -/
theorem Representable.multiple_or_le (hv : Representable v) (hx : 0 < x) :
    (∃ k : ℤ, v = k * 2 ^ lastBit x) ∨
      v ≤ 2 ^ Int.log 2 x ∧ ∃ k : ℤ, (2 : ℚ) ^ Int.log 2 x = k * 2 ^ lastBit x := by
  obtain ⟨m, e, rfl, hm, he⟩ := hv
  rw [lastBit, abs_of_pos hx]
  by_cases hle : max (Int.log 2 x - 52) (-1074) ≤ e
  · left
    obtain ⟨d, hd⟩ := Int.le.dest hle
    use m * 2 ^ d
    rw [← hd, zpow_add₀ (by norm_num), zpow_natCast]
    push_cast
    ring
  · right
    have hlast : max (Int.log 2 x - 52) (-1074) = Int.log 2 x - 52 := by omega
    constructor
    · have hmq : (m : ℚ) ≤ 2 ^ 53 := by
        exact_mod_cast (le_abs_self m).trans hm
      calc (m : ℚ) * 2 ^ e ≤ 2 ^ 53 * 2 ^ e := by gcongr
        _ = 2 ^ (53 + e) := by
          rw [zpow_add₀ (by norm_num)]
          norm_num
        _ ≤ 2 ^ Int.log 2 x := zpow_le_zpow_right₀ (by norm_num) (by omega)
    · use 2 ^ 52
      rw [hlast, zpow_sub₀ (by norm_num)]
      push_cast
      ring

/-- Rounding up passes no representable value. -/
theorem roundBinary64_le (hv : Representable v) (hx : 0 < x) (h : x ≤ v) : roundBinary64 x ≤ v := by
  have hbit : (0 : ℚ) < 2 ^ lastBit x := by positivity
  obtain ⟨k, hk⟩ : ∃ k : ℤ, v = k * 2 ^ lastBit x := by
    rcases hv.multiple_or_le hx with hmultiple | ⟨hle, k, hk⟩
    · exact hmultiple
    · -- Only the leading bit itself lies between.
      have hlead : (2 : ℚ) ^ Int.log 2 x ≤ x := Int.zpow_log_le_self (by norm_num) hx
      exact ⟨k, hk ▸ le_antisymm hle (hlead.trans h)⟩
  rw [hk] at h ⊢
  unfold roundBinary64
  have hround : nearestEven (x / 2 ^ lastBit x) ≤ k := by
    apply nearestEven_le
    rw [div_le_iff₀ hbit]
    exact h
  have : ((nearestEven (x / 2 ^ lastBit x) : ℤ) : ℚ) ≤ k := by exact_mod_cast hround
  gcongr

/-- Rounding down passes no representable value. -/
theorem le_roundBinary64 (hv : Representable v) (hx : 0 < x) (h : v ≤ x) :
    v ≤ roundBinary64 x := by
  have hbit : (0 : ℚ) < 2 ^ lastBit x := by positivity
  have hkeep : ∀ k : ℤ, (k : ℚ) * 2 ^ lastBit x ≤ x →
      (k : ℚ) * 2 ^ lastBit x ≤ roundBinary64 x := by
    intro k hk
    unfold roundBinary64
    have hround : k ≤ nearestEven (x / 2 ^ lastBit x) := by
      apply le_nearestEven
      rw [le_div_iff₀ hbit]
      exact hk
    have : (k : ℚ) ≤ (nearestEven (x / 2 ^ lastBit x) : ℤ) := by exact_mod_cast hround
    gcongr
  rcases hv.multiple_or_le hx with ⟨k, rfl⟩ | ⟨hle, k, hk⟩
  · exact hkeep k h
  · have hlead : (2 : ℚ) ^ Int.log 2 x ≤ x := Int.zpow_log_le_self (by norm_num) hx
    apply hle.trans
    rw [hk] at hlead ⊢
    exact hkeep k hlead

theorem roundBinary64_eq (hv : Representable v) (hpos : 0 < v) : roundBinary64 v = v :=
  le_antisymm (roundBinary64_le hv hpos le_rfl) (le_roundBinary64 hv hpos le_rfl)

end Round

@[simp] theorem roundBinary64_zero : roundBinary64 0 = 0 := by
  have h : nearestEven 0 = 0 := by simpa using nearestEven_intCast 0
  simp [roundBinary64, h]

theorem roundBinary64_nonneg {x : ℚ} (h : 0 ≤ x) : 0 ≤ roundBinary64 x := by
  have hround : 0 ≤ nearestEven (x / 2 ^ lastBit x) := by
    apply le_nearestEven
    rw [Int.cast_zero]
    positivity
  have : (0 : ℚ) ≤ nearestEven (x / 2 ^ lastBit x) := by exact_mod_cast hround
  unfold roundBinary64
  positivity

/-- The nearest integer is half a unit away at most. -/
theorem nearestEven_near (x : ℚ) : |(nearestEven x : ℚ) - x| ≤ 1 / 2 := by
  have hlo := Int.floor_le x
  have hhi := Int.lt_floor_add_one x
  unfold nearestEven
  simp only
  split_ifs <;> push_cast <;> rw [abs_le] <;> constructor <;> linarith

/-- A rounding moves a number by half of its last bit at most. -/
theorem roundBinary64_near (x : ℚ) : |roundBinary64 x - x| ≤ 2 ^ lastBit x / 2 := by
  have hbit : (0 : ℚ) < 2 ^ lastBit x := by positivity
  have hx : x = x / 2 ^ lastBit x * 2 ^ lastBit x := (div_mul_cancel₀ x hbit.ne').symm
  calc |roundBinary64 x - x|
      = |(nearestEven (x / 2 ^ lastBit x) : ℚ) - x / 2 ^ lastBit x| * 2 ^ lastBit x := by
        rw [← abs_of_pos hbit, ← abs_mul, abs_of_pos hbit, sub_mul, ← hx, roundBinary64]
    _ ≤ 1 / 2 * 2 ^ lastBit x := by
        gcongr
        exact nearestEven_near _
    _ = 2 ^ lastBit x / 2 := by ring

theorem lastBit_mono {x y : ℚ} (hx : 0 < x) (h : x ≤ y) : lastBit x ≤ lastBit y := by
  have hlog : Int.log 2 x ≤ Int.log 2 y := Int.log_mono_right hx h
  unfold lastBit
  rw [abs_of_pos hx, abs_of_pos (hx.trans_le h)]
  omega

theorem nearestEven_mono {x y : ℚ} (h : x ≤ y) : nearestEven x ≤ nearestEven y := by
  rcases (Int.floor_mono h).lt_or_eq with hlt | heq
  · rcases nearestEven_mem x with hx | hx <;> rcases nearestEven_mem y with hy | hy <;> omega
  · unfold nearestEven
    simp only [heq]
    split_ifs <;> first | omega | (exfalso; linarith)

/-- Rounding keeps the order of what is not negative. -/
theorem roundBinary64_mono {x y : ℚ} (hx : 0 ≤ x) (h : x ≤ y) :
    roundBinary64 x ≤ roundBinary64 y := by
  rcases hx.eq_or_lt with rfl | hx
  · rw [roundBinary64_zero]
    exact roundBinary64_nonneg h
  have hy := hx.trans_le h
  rcases (lastBit_mono hx h).lt_or_eq with hlt | heq
  · -- The leading bit of the larger one lies between.
    have hlead : lastBit y = Int.log 2 y - 52 := by
      unfold lastBit at hlt ⊢
      rw [abs_of_pos hx, abs_of_pos hy] at hlt
      rw [abs_of_pos hy]
      omega
    have hbits : lastBit x < Int.log 2 y - 52 := hlead ▸ hlt
    have hlow : -1074 ≤ lastBit x := le_max_right _ _
    have hrep : Representable (2 ^ Int.log 2 y) :=
      ⟨2 ^ 52, Int.log 2 y - 52, by
        rw [zpow_sub₀ (by norm_num)]
        push_cast
        field_simp, by norm_num, by omega⟩
    have hbelow : x < 2 ^ Int.log 2 y := by
      have hlog : Int.log 2 x < Int.log 2 y := by
        have : Int.log 2 x - 52 ≤ lastBit x := by
          unfold lastBit
          rw [abs_of_pos hx]
          exact le_max_left _ _
        omega
      exact (Int.lt_zpow_iff_log_lt (by norm_num) hx).mpr hlog
    exact (roundBinary64_le hrep hx hbelow.le).trans
      (le_roundBinary64 hrep hy (Int.zpow_log_le_self (by norm_num) hy))
  · unfold roundBinary64
    rw [heq]
    have hround : nearestEven (x / 2 ^ lastBit y) ≤ nearestEven (y / 2 ^ lastBit y) := by
      apply nearestEven_mono
      gcongr
    have : ((nearestEven (x / 2 ^ lastBit y) : ℤ) : ℚ) ≤ nearestEven (y / 2 ^ lastBit y) := by
      exact_mod_cast hround
    gcongr

namespace Binary64

/-- An integer as the nearest value. -/
def ofNat (n : ℕ) : ℚ := roundBinary64 n

def add (x y : ℚ) : ℚ := roundBinary64 (x + y)

def sub (x y : ℚ) : ℚ := roundBinary64 (x - y)

def mul (x y : ℚ) : ℚ := roundBinary64 (x * y)

def div (x y : ℚ) : ℚ := roundBinary64 (x / y)

theorem add_neg (x y : ℚ) : add x (-y) = sub x y := by rw [add, sub, sub_eq_add_neg]

theorem ofNat_mono {m n : ℕ} (h : m ≤ n) : ofNat m ≤ ofNat n :=
  roundBinary64_mono (by positivity) (by exact_mod_cast h)

theorem representable_one : Representable 1 := by
  simpa using representable_natCast (n := 1) (by norm_num)

theorem one_le_ofNat {n : ℕ} (h : 0 < n) : 1 ≤ ofNat n := by
  exact le_roundBinary64 representable_one (by exact_mod_cast h) (by exact_mod_cast h)

/-- A fraction is not rounded above one. -/
theorem round_le_one {x : ℚ} (hx : 0 ≤ x) (h : x ≤ 1) : roundBinary64 x ≤ 1 := by
  rcases hx.eq_or_lt with rfl | hpos
  · rw [roundBinary64_zero]
    exact zero_le_one
  · exact roundBinary64_le representable_one hpos h

/-- A part of a sum and the rounded rest of it miss the sum by half of its last bit at most. -/
theorem sub_add_near {sum part : ℚ} (hpart : 0 ≤ part) (h : part ≤ sum) :
    |sub sum part + part - sum| ≤ 2 ^ lastBit sum / 2 := by
  rw [show sub sum part + part - sum = sub sum part - (sum - part) by ring]
  rcases h.eq_or_lt with rfl | hlt
  · rw [sub, sub_self, roundBinary64_zero, sub_zero, abs_zero]
    positivity
  · have hrest : 0 < sum - part := sub_pos.mpr hlt
    have hbit : lastBit (sum - part) ≤ lastBit sum := lastBit_mono hrest (by linarith)
    calc |sub sum part - (sum - part)| ≤ 2 ^ lastBit (sum - part) / 2 := roundBinary64_near _
      _ ≤ 2 ^ lastBit sum / 2 := by
        gcongr
        norm_num

theorem ofNat_nonneg (n : ℕ) : 0 ≤ ofNat n := roundBinary64_nonneg (by positivity)

end Binary64
end ScreenerBot.Library
