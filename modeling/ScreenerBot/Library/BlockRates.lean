import ScreenerBot.Library.Rounding
import Mathlib.Algebra.BigOperators.Intervals

/-! Amounts charged unit by unit at a rate that does not fall, and the average rate they pay. -/
namespace ScreenerBot.Library
open Finset

/-- What `amount` units pay when the units of each block of `size` pay its rate. -/
def blockTotal (rate : ℕ → ℕ) (size amount : ℕ) : ℕ := ∑ unit ∈ range amount, rate (unit / size)

variable {rate : ℕ → ℕ} {size : ℕ}

/-- The average does not fall: a later unit pays at least what every earlier one does. -/
theorem blockTotal_average (hrate : Monotone rate) {few many : ℕ} (h : few ≤ many) :
    blockTotal rate size few * many ≤ blockTotal rate size many * few := by
  induction many, h using Nat.le_induction with
  | base => exact le_rfl
  | succ many hle ih =>
    have hlast : blockTotal rate size few ≤ few * rate (many / size) := by
      calc blockTotal rate size few
          ≤ ∑ _unit ∈ range few, rate (many / size) := by
            apply sum_le_sum
            intro unit hunit
            have hunit : unit ≤ many := (mem_range.mp hunit).le.trans hle
            exact hrate (Nat.div_le_div_right hunit)
        _ = few * rate (many / size) := by rw [sum_const, card_range, smul_eq_mul]
    have hsucc : blockTotal rate size (many + 1) =
        blockTotal rate size many + rate (many / size) := sum_range_succ _ _
    rw [hsucc]
    nlinarith

theorem blockTotal_ceilDiv_mono (hrate : Monotone rate) {few many : ℕ} (hpos : 0 < few)
    (h : few ≤ many) : blockTotal rate size few ⌈/⌉ few ≤ blockTotal rate size many ⌈/⌉ many := by
  have hmany : 0 < many := hpos.trans_le h
  rw [ceilDiv_le_iff_le_mul hpos]
  have haverage : blockTotal rate size few * many ≤ blockTotal rate size many * few :=
    blockTotal_average hrate h
  have hceil := le_mul_ceilDiv (blockTotal rate size many) hmany
  apply Nat.le_of_mul_le_mul_right _ hmany
  nlinarith

/-- One rate for every unit is the average. -/
theorem blockTotal_ceilDiv_const {amount first : ℕ} (hpos : 0 < amount)
    (h : ∀ unit < amount, rate (unit / size) = first) :
    blockTotal rate size amount ⌈/⌉ amount = first := by
  have htotal : blockTotal rate size amount = amount * first := by
    unfold blockTotal
    rw [sum_congr rfl fun unit hunit => h unit (mem_range.mp hunit), sum_const, card_range,
      smul_eq_mul]
  apply eq_of_forall_ge_iff
  intro bound
  rw [ceilDiv_le_iff_le_mul hpos, htotal, Nat.mul_le_mul_left_iff hpos]

theorem blockTotal_ceilDiv_le {amount cap : ℕ} (hpos : 0 < amount) (h : ∀ block, rate block ≤ cap) :
    blockTotal rate size amount ⌈/⌉ amount ≤ cap := by
  rw [ceilDiv_le_iff_le_mul hpos]
  calc blockTotal rate size amount ≤ ∑ _unit ∈ range amount, cap :=
        sum_le_sum fun unit _ => h (unit / size)
    _ = amount * cap := by rw [sum_const, card_range, smul_eq_mul]

/-- Whole blocks and the rest of the next one. -/
theorem blockTotal_blocks (hsize : 0 < size) (blocks : ℕ) {rest : ℕ} (hrest : rest ≤ size) :
    blockTotal rate size (size * blocks + rest) =
      size * ∑ block ∈ range blocks, rate block + rest * rate blocks := by
  have hrun (first : ℕ) {rest : ℕ} (hrest : rest ≤ size) :
      ∑ unit ∈ range rest, rate ((size * first + unit) / size) = rest * rate first := by
    have hunits : ∀ unit ∈ range rest, rate ((size * first + unit) / size) = rate first := by
      intro unit hunit
      have hunit := mem_range.mp hunit
      rw [Nat.mul_add_div hsize, Nat.div_eq_of_lt (by omega), add_zero]
    rw [sum_congr rfl hunits, sum_const, card_range, smul_eq_mul]
  unfold blockTotal
  rw [sum_range_add, hrun blocks hrest]
  congr 1
  induction blocks with
  | zero => simp
  | succ blocks ih =>
    rw [Nat.mul_succ, sum_range_add, ih, hrun blocks le_rfl, sum_range_succ, Nat.mul_add]

/-- Rates that start at `first` and rise by `increment` a block, up to a cap. -/
def cappedRate (first increment cap block : ℕ) : ℕ := min (first + increment * block) cap

theorem cappedRate_mono (first increment cap : ℕ) : Monotone (cappedRate first increment cap) := by
  intro low high h
  exact min_le_min_right cap (Nat.add_le_add_left (Nat.mul_le_mul_left increment h) first)

end ScreenerBot.Library
