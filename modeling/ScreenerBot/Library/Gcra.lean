import Mathlib.Algebra.Order.Floor.Ring
import Mathlib.Algebra.Order.Floor.Semiring
import Mathlib.Algebra.Order.Field.Basic
import Mathlib.Tactic

/-!
The generic cell rate algorithm: a limiter that keeps the time its next cell is due.

A cell conforms from its due time less a tolerance of `burst - 1` intervals on, and moves the due
time on by one interval.
-/
namespace ScreenerBot.Library

/-- One cell each `interval`, and `burst` of them at once after a rest. -/
structure Quota (K : Type*) [Zero K] [LT K] where
  interval : K
  burst : ℕ
  interval_pos : 0 < interval
  burst_pos : 0 < burst

namespace Quota

variable {K : Type*} [Field K] [LinearOrder K]
variable (quota : Quota K) (due now : K)

def tolerance : K := (quota.burst - 1) * quota.interval

/-- A cell at `now`: the next due time, where the cell conforms. -/
def check : Option K :=
  if due - quota.tolerance ≤ now then some (max due now + quota.interval) else none

/-- The cells of `count` that conform at `now` one after the other, and the due time they leave. -/
def checkAll : ℕ → K → Bool × K
  | 0, due => (true, due)
  | count + 1, due =>
    match quota.check due now with
    | some next => checkAll count next
    | none => (false, due)

/-- The cells that conform at `now`. -/
def available [FloorSemiring K] : ℕ := quota.burst - ⌈(max due now - now) / quota.interval⌉₊

/-- The cells in the closed window `[lo, hi]`. -/
def inWindow (cells : List K) (lo hi : K) : ℕ := cells.countP fun cell => lo ≤ cell ∧ cell ≤ hi

/-- In every window the cells admitted so far keep the rate up to one burst, and each of them has
moved the due time on. -/
structure Windowed (cells : List K) : Prop where
  moved : ∀ lo hi, 0 < inWindow cells lo hi → lo + inWindow cells lo hi * quota.interval ≤ due
  bounded : ∀ lo hi, lo ≤ hi → inWindow cells lo hi ≤ (hi - lo) / quota.interval + quota.burst

variable {quota due now} {next : K}

section Checks
variable [IsStrictOrderedRing K]

theorem check_eq_some (h : quota.check due now = some next) :
    due ≤ now + quota.tolerance ∧ next = max due now + quota.interval := by
  unfold check at h
  split_ifs at h with hconforms
  exact ⟨by linarith, (Option.some_inj.mp h).symm⟩

/-- Due times never go back. -/
theorem le_of_check (h : quota.check due now = some next) : due ≤ next := by
  have hpos := quota.interval_pos
  obtain ⟨-, rfl⟩ := check_eq_some h
  linarith [le_max_left due now]

theorem le_checkAll (count : ℕ) : due ≤ (quota.checkAll now count due).2 := by
  induction count generalizing due with
  | zero => exact le_rfl
  | succ count ih =>
    cases hcheck : quota.check due now with
    | none => simp [checkAll, hcheck]
    | some next =>
      have hnext : (quota.checkAll now (count + 1) due).2 = (quota.checkAll now count next).2 := by
        simp [checkAll, hcheck]
      rw [hnext]
      exact (le_of_check hcheck).trans ih

end Checks

section Available
variable [IsStrictOrderedRing K] [FloorRing K]

/-- Some cell conforms when the next one does. -/
theorem available_pos : 0 < quota.available due now ↔ (quota.check due now).isSome := by
  have hpos := quota.interval_pos
  have hburst := quota.burst_pos
  have hone : ((quota.burst - 1 : ℕ) : K) = quota.burst - 1 := by
    rw [Nat.cast_sub hburst, Nat.cast_one]
  have hceil : 0 < quota.available due now ↔
      ⌈(max due now - now) / quota.interval⌉₊ ≤ quota.burst - 1 := by
    unfold available
    omega
  rw [hceil, Nat.ceil_le, div_le_iff₀ hpos, hone, check, tolerance]
  have htolerance : 0 ≤ ((quota.burst : K) - 1) * quota.interval := by
    rw [← hone]
    positivity
  split_ifs with hconforms
  · have hmax : max due now - now ≤ ((quota.burst : K) - 1) * quota.interval := by
      rcases le_total due now with hle | hle
      · rw [max_eq_right hle, sub_self]
        exact htolerance
      · rw [max_eq_left hle]
        linarith
    simp [hmax]
  · have hmax : ¬ max due now - now ≤ ((quota.burst : K) - 1) * quota.interval := by
      intro hmax
      have := le_max_left due now
      exact hconforms (by linarith)
    simp [hmax]

theorem available_next (h : quota.check due now = some next) :
    quota.available next now + 1 = quota.available due now := by
  have hpos := quota.interval_pos
  have hsome := available_pos.mpr (Option.isSome_of_mem h)
  obtain ⟨-, rfl⟩ := check_eq_some h
  have hmax := le_max_right due now
  have hsplit : (max (max due now + quota.interval) now - now) / quota.interval =
      (max due now - now) / quota.interval + 1 := by
    rw [max_eq_left (by linarith)]
    field_simp
    ring
  unfold available at hsome ⊢
  rw [hsplit, Nat.ceil_add_one (div_nonneg (by linarith) hpos.le)]
  omega

theorem available_none (h : quota.check due now = none) : quota.available due now = 0 := by
  by_contra hne
  have := available_pos.mp (Nat.pos_of_ne_zero hne)
  simp [h] at this

theorem checkAll_spec (count : ℕ) :
    ((quota.checkAll now count due).1 = true ↔ count ≤ quota.available due now) ∧
      quota.available (quota.checkAll now count due).2 now = quota.available due now - count := by
  induction count generalizing due with
  | zero => simp [checkAll]
  | succ count ih =>
    cases hcheck : quota.check due now with
    | none =>
      have hnone := available_none hcheck
      simp [checkAll, hcheck, hnone]
    | some next =>
      have hnext := available_next hcheck
      obtain ⟨hall, hleft⟩ := @ih next
      simp only [checkAll, hcheck, hall, hleft]
      omega

end Available

section Windows
variable [IsStrictOrderedRing K] {cells : List K}

theorem Windowed.nil : quota.Windowed due [] := by
  constructor
  · intro lo hi hpos
    exact absurd hpos (lt_irrefl 0)
  · intro lo hi hle
    have := div_nonneg (sub_nonneg.mpr hle) quota.interval_pos.le
    simp only [inWindow, List.countP_nil, Nat.cast_zero]
    positivity

omit [IsStrictOrderedRing K] in

/-- A later due time keeps the windows. -/
theorem Windowed.later (h : quota.Windowed due cells) (hle : due ≤ next) :
    quota.Windowed next cells :=
  ⟨fun lo hi hpos => (h.moved lo hi hpos).trans hle, h.bounded⟩

theorem Windowed.check (h : quota.Windowed due cells) (hcheck : quota.check due now = some next) :
    quota.Windowed next (now :: cells) := by
  have hpos := quota.interval_pos
  have hburst : (1 : K) ≤ quota.burst := by exact_mod_cast quota.burst_pos
  have hlater := h.later (le_of_check hcheck)
  obtain ⟨hconforms, rfl⟩ := check_eq_some hcheck
  have hcons (lo hi : K) : inWindow (now :: cells) lo hi =
      inWindow cells lo hi + if lo ≤ now ∧ now ≤ hi then 1 else 0 := by
    simp [inWindow, List.countP_cons]
  have hmoved (lo hi : K) (hin : lo ≤ now) :
      lo + (inWindow cells lo hi + 1) * quota.interval ≤ max due now + quota.interval := by
    rcases Nat.eq_zero_or_pos (inWindow cells lo hi) with hzero | hsome
    · rw [hzero, Nat.cast_zero, zero_add, one_mul]
      linarith [le_max_right due now]
    · have := h.moved lo hi hsome
      linarith [le_max_left due now]
  constructor
  · intro lo hi hsome
    rw [hcons] at hsome ⊢
    split_ifs at hsome ⊢ with hin
    · exact_mod_cast hmoved lo hi hin.1
    · exact hlater.moved lo hi hsome
  · intro lo hi hle
    rw [hcons]
    split_ifs with hin
    · rcases Nat.eq_zero_or_pos (inWindow cells lo hi) with hzero | hsome
      · have := div_nonneg (sub_nonneg.mpr hle) hpos.le
        rw [hzero, Nat.cast_add, Nat.cast_zero, zero_add, Nat.cast_one]
        linarith
      -- The cells before this one have moved the due time at most a tolerance past it.
      · have hbefore := h.moved lo hi hsome
        rw [tolerance] at hconforms
        have hspan : (inWindow cells lo hi + 1 - quota.burst) * quota.interval ≤ hi - lo := by
          linarith [hin.2]
        have hcount := (le_div_iff₀ hpos).mpr hspan
        rw [Nat.cast_add, Nat.cast_one]
        linarith
    · exact h.bounded lo hi hle

theorem Windowed.checkAll (h : quota.Windowed due cells) {count : ℕ}
    (hall : (quota.checkAll now count due).1 = true) :
    quota.Windowed (quota.checkAll now count due).2 (List.replicate count now ++ cells) := by
  induction count generalizing due cells with
  | zero => exact h
  | succ count ih =>
    cases hcheck : quota.check due now with
    | none => simp [Quota.checkAll, hcheck] at hall
    | some next =>
      have hnext : quota.checkAll now (count + 1) due = quota.checkAll now count next := by
        simp [Quota.checkAll, hcheck]
      rw [hnext] at hall ⊢
      have hrest := ih (h.check hcheck) hall
      rw [List.replicate_succ', List.append_assoc]
      exact hrest

end Windows

end Quota

end ScreenerBot.Library
