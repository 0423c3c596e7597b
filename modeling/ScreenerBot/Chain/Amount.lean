import Mathlib.Data.Rat.Lemmas
import Mathlib.Algebra.Order.Field.Rat
import Mathlib.Tactic

/-! Raw integer amounts and the money units derived from them. Raw amounts stay exact;
whole-unit and native amounts, `f64` in the source, are exact rationals here. -/
namespace ScreenerBot

def i128Max : ℤ := 2 ^ 127 - 1

def i128Min : ℤ := -2 ^ 127

def u128Max : ℕ := 2 ^ 128 - 1

def u64Max : ℕ := 2 ^ 64 - 1

def u32Max : ℕ := 2 ^ 32 - 1

/-- The result of a checked `i128` operation whose exact value is `x`. -/
def checkedI128 (x : ℤ) : Option ℤ := if i128Min ≤ x ∧ x ≤ i128Max then some x else none

/-- `i128::try_from` on an unsigned raw amount. -/
def i128OfRaw (v : ℕ) : Option ℤ := checkedI128 v

/-- The result of a checked `u128` operation whose exact value is `x`. -/
def checkedRaw (x : ℕ) : Option ℕ := if x ≤ u128Max then some x else none

/-- `u64::saturating_add`. -/
def saturatingAddU64 (a b : ℕ) : ℕ := min (a + b) u64Max

/-- `u32::saturating_add`. -/
def saturatingAddU32 (a b : ℕ) : ℕ := min (a + b) u32Max

/-- Whole units of a raw amount. -/
def toWholeUnits (raw decimals : ℕ) : ℚ := (raw : ℚ) / 10 ^ decimals

/-- Whole-unit amounts below this are treated as zero. -/
def dust : ℚ := 1 / 10 ^ 12

theorem checkedI128_eq_some {x y : ℤ} :
    checkedI128 x = some y ↔ x = y ∧ i128Min ≤ x ∧ x ≤ i128Max := by
  unfold checkedI128
  split
  next h => exact ⟨fun e => ⟨Option.some.inj e, h⟩, fun e => congrArg some e.1⟩
  next h => exact ⟨nofun, fun e => absurd e.2 h⟩

theorem checkedI128_of_mem {x : ℤ} (hlo : i128Min ≤ x) (hhi : x ≤ i128Max) :
    checkedI128 x = some x := by simp [checkedI128, hlo, hhi]

theorem i128OfRaw_eq_some {v : ℕ} {x : ℤ} :
    i128OfRaw v = some x ↔ (v : ℤ) = x ∧ (v : ℤ) ≤ i128Max := by
  unfold i128OfRaw
  rw [checkedI128_eq_some]
  have hlo : i128Min ≤ (v : ℤ) := by unfold i128Min; omega
  tauto

theorem checkedRaw_eq_some {x y : ℕ} : checkedRaw x = some y ↔ x = y ∧ x ≤ u128Max := by
  unfold checkedRaw
  split
  next h => exact ⟨fun e => ⟨Option.some.inj e, h⟩, fun e => congrArg some e.1⟩
  next h => exact ⟨nofun, fun e => absurd e.2 h⟩

theorem toWholeUnits_nonneg (raw decimals : ℕ) : 0 ≤ toWholeUnits raw decimals := by
  unfold toWholeUnits; positivity

/-- The literal mint of native SOL rows. -/
def nativeSolSentinel : String := "native"

def solMint : String := "So11111111111111111111111111111111111111112"

def systemProgramId : String := "11111111111111111111111111111111"

def usdcMint : String := "EPjFWdd5AufqSSqeM2qN1xzybapC8G4wEGGkZwyTDt1v"

def usdtMint : String := "Es9vMFrzaCERmJfrF4H2FYD4KCoNkY11McCe8BenwNYB"

def isNativeAsset (address : String) : Bool := address == solMint || address == systemProgramId

def stableAssets : List String := [usdcMint, usdtMint]

def isStableAsset (address : String) : Bool := stableAssets.contains address

def isQuoteAsset (address : String) : Bool := isNativeAsset address || isStableAsset address

def lamportsPerSol : ℕ := 1000000000

/-- Whole native units of a raw base-unit amount. -/
def rawToNative (raw : ℕ) : ℚ := (raw : ℚ) / lamportsPerSol

end ScreenerBot
