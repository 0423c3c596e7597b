import ScreenerBot.Chain.Amount
import ScreenerBot.Library.Binary64

/-! Whole-unit and native amounts as the finite `f64` values the source computes. -/
namespace ScreenerBot.Rounded
open Library

def toWholeUnits (raw decimals : ℕ) : ℚ :=
  Binary64.div (Binary64.ofNat raw) (Binary64.ofNat (10 ^ decimals))

def rawToNative (raw : ℕ) : ℚ := Binary64.div (Binary64.ofNat raw) lamportsPerSol

def dust : ℚ := roundBinary64 ScreenerBot.dust

end ScreenerBot.Rounded
