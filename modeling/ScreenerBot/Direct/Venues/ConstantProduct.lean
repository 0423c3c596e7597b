import ScreenerBot.Chain.WideMath
import ScreenerBot.Direct.Quote
import ScreenerBot.Library.ProductCurve

/-!
The arithmetic the constant-product venues share, and the quotes of three of them.

Products and sums of 64-bit amounts fit the 128-bit words of the source, so they are exact here.
-/
namespace ScreenerBot.Direct.Venues.ConstantProduct
open ScreenerBot.Chain ScreenerBot.Library ScreenerBot.Swaps

/-- `Pubkey::default()`. -/
def defaultPubkey : String := "11111111111111111111111111111111"

/-- Fee taken off an amount at `rate` per `denominator`, rounded up. -/
def feeAmount (amount rate denominator : ℕ) : ℕ :=
  if rate = 0 ∨ denominator = 0 then 0 else min (ceilDiv (amount * rate) denominator) amount

def constantProductOut (reserveIn reserveOut amountIn : ℕ) : ℕ :=
  if reserveIn = 0 ∨ reserveOut = 0 ∨ amountIn = 0 then 0
  else min (reserveOut * amountIn / (reserveIn + amountIn)) (reserveOut - 1)

/-- The realised rate of what reached the curve against the marginal rate, in per cent. -/
def priceImpactPct (reserveIn reserveOut amountIn lpFee amountOut : ℕ) : ℚ :=
  let swapped := amountIn - lpFee
  if reserveIn = 0 ∨ reserveOut = 0 ∨ swapped = 0 ∨ amountOut = 0 then 0
  else
    let spot : ℚ := reserveOut / reserveIn
    let realised : ℚ := amountOut / swapped
    if spot ≤ 0 then 0 else max 0 (min 100 ((spot - realised) / spot * 100))

structure TransferFeeSchedule where
  basisPoints : UInt16
  maximumFee : UInt64

def TransferFeeSchedule.feeOn (schedule : TransferFeeSchedule) (amount : ℕ) : ℕ :=
  if schedule.basisPoints = 0 then 0
  else min (min (amount * schedule.basisPoints.toNat ⌈/⌉ 10000) schedule.maximumFee.toNat) amount

/-- What arrives when `amount` is sent under an optional schedule. -/
def netOfFee (schedule : Option TransferFeeSchedule) (amount : ℕ) : ℕ :=
  match schedule with
  | none => amount
  | some s => amount - s.feeOn amount

/-- A quote of a pool whose side the input mint has to be. -/
def forSide (pool inputMint : String) (side : Option Bool)
    (quote : Bool → Except DirectSwapError VenueQuote) : Except DirectSwapError VenueQuote :=
  match side with
  | none => .error (.pairNotInPool pool inputMint defaultPubkey)
  | some s => quote s

/-- The side a mint is of a pool's two. -/
def sideOf (first second mint : String) : Option Bool :=
  if mint = first then some true else if mint = second then some false else none

structure FluxbeamPoolState where
  pool : String
  mintA : String
  mintB : String
  tradeFeeNumerator : UInt64
  tradeFeeDenominator : UInt64
  ownerTradeFeeNumerator : UInt64
  ownerTradeFeeDenominator : UInt64

structure FluxbeamMarket where
  state : FluxbeamPoolState
  vaultABalance : UInt64
  vaultBBalance : UInt64

namespace FluxbeamMarket
variable (m : FluxbeamMarket)

def reserves (sideA : Bool) : ℕ := if sideA then m.vaultABalance.toNat else m.vaultBBalance.toNat

def tradeFee (amountIn : ℕ) : ℕ :=
  feeAmount amountIn m.state.tradeFeeNumerator.toNat m.state.tradeFeeDenominator.toNat

def ownerFee (amountIn : ℕ) : ℕ :=
  feeAmount amountIn m.state.ownerTradeFeeNumerator.toNat m.state.ownerTradeFeeDenominator.toNat

def lpFee (amountIn : ℕ) : ℕ :=
  min (saturatingAddU64 (m.tradeFee amountIn) (m.ownerFee amountIn)) amountIn

def sourceLessFees (amountIn : ℕ) : ℕ := amountIn - m.lpFee amountIn

/-- The quote once the side and the reserves are known. -/
def quoteReserves (reserveIn reserveOut amountIn : ℕ) : Except DirectSwapError VenueQuote :=
  let lpFee := m.lpFee amountIn
  let sourceLessFees := m.sourceLessFees amountIn
  if sourceLessFees = 0 then .ok ⟨amountIn, 0, lpFee, 0⟩
  else
    match mulDivCeil reserveOut reserveIn (reserveIn + sourceLessFees) with
    | none => .error (.quoteMath "FluxBeam curve division overflowed")
    | some newDest =>
      if reserveOut < newDest then
        .error (.quoteMath "FluxBeam curve produced an output above the pool's own reserve")
      else
        let expectedOut := reserveOut - newDest
        .ok ⟨amountIn, expectedOut, lpFee,
          priceImpactPct reserveIn reserveOut amountIn lpFee expectedOut⟩

def quote (inputMint : String) (amountIn : UInt64) : Except DirectSwapError VenueQuote :=
  forSide m.state.pool inputMint (sideOf m.state.mintA m.state.mintB inputMint) fun inputIsA =>
    if m.reserves inputIsA = 0 ∨ m.reserves (!inputIsA) = 0 then
      .error (.insufficientLiquidity m.state.pool amountIn.toNat "a vault side is empty")
    else m.quoteReserves (m.reserves inputIsA) (m.reserves (!inputIsA)) amountIn.toNat

end FluxbeamMarket

def feeRateDenominator : ℕ := 1000000

structure CpmmPoolState where
  pool : String
  mint0 : String
  mint1 : String
  protocolFees0 : UInt64
  protocolFees1 : UInt64
  fundFees0 : UInt64
  fundFees1 : UInt64
  creatorFees0 : UInt64
  creatorFees1 : UInt64
  creatorFeeEnabled : Bool

structure CpmmFeeConfig where
  tradeFeeRate : UInt64
  creatorFeeRate : UInt64

structure CpmmMarket where
  state : CpmmPoolState
  config : CpmmFeeConfig
  vault0Balance : UInt64
  vault1Balance : UInt64
  transferFee0 : Option TransferFeeSchedule
  transferFee1 : Option TransferFeeSchedule

namespace CpmmMarket
variable (m : CpmmMarket)

/-- A vault less the protocol, fund and creator fees awaiting collection out of it. -/
def reserves (side0 : Bool) : ℕ :=
  if side0 then
    m.vault0Balance.toNat - m.state.protocolFees0.toNat - m.state.fundFees0.toNat -
      m.state.creatorFees0.toNat
  else
    m.vault1Balance.toNat - m.state.protocolFees1.toNat - m.state.fundFees1.toNat -
      m.state.creatorFees1.toNat

def inputFeeRate : ℕ :=
  if m.state.creatorFeeEnabled then
    saturatingAddU64 m.config.tradeFeeRate.toNat m.config.creatorFeeRate.toNat
  else m.config.tradeFeeRate.toNat

def transferFee (side0 : Bool) : Option TransferFeeSchedule :=
  if side0 then m.transferFee0 else m.transferFee1

/-- What survives the input mint's transfer fee. -/
def receivedByPool (input0 : Bool) (amountIn : ℕ) : ℕ := netOfFee (m.transferFee input0) amountIn

def lpFee (receivedByPool : ℕ) : ℕ := feeAmount receivedByPool m.inputFeeRate feeRateDenominator

def swappable (input0 : Bool) (amountIn : ℕ) : ℕ :=
  m.receivedByPool input0 amountIn - m.lpFee (m.receivedByPool input0 amountIn)

def grossOut (input0 : Bool) (amountIn : ℕ) : ℕ :=
  constantProductOut (m.reserves input0) (m.reserves (!input0)) (m.swappable input0 amountIn)

def quote (inputMint : String) (amountIn : UInt64) : Except DirectSwapError VenueQuote :=
  forSide m.state.pool inputMint (sideOf m.state.mint0 m.state.mint1 inputMint) fun input0 =>
    if m.reserves input0 = 0 ∨ m.reserves (!input0) = 0 then
      .error (.insufficientLiquidity m.state.pool amountIn.toNat
        "a vault side is empty once collectable fees are excluded")
    else if m.receivedByPool input0 amountIn.toNat = 0 then
      .error (.insufficientLiquidity m.state.pool amountIn.toNat
        "the input mint's transfer fee consumes the whole amount")
    else
      let lpFee := m.lpFee (m.receivedByPool input0 amountIn.toNat)
      let expectedOut := netOfFee (m.transferFee (!input0)) (m.grossOut input0 amountIn.toNat)
      .ok ⟨amountIn.toNat, expectedOut, lpFee,
        priceImpactPct (m.reserves input0) (m.reserves (!input0)) amountIn.toNat lpFee expectedOut⟩

end CpmmMarket

structure AmmV4PoolState where
  pool : String
  coinMint : String
  pcMint : String
  swapFeeNumerator : UInt64
  swapFeeDenominator : UInt64
  needTakePnlCoin : UInt64
  needTakePnlPc : UInt64

structure AmmV4Market where
  state : AmmV4PoolState
  coinBalance : UInt64
  pcBalance : UInt64

namespace AmmV4Market
variable (m : AmmV4Market)

/-- A vault less the profit earmarked out of it. -/
def reserves (coin : Bool) : ℕ :=
  if coin then m.coinBalance.toNat - m.state.needTakePnlCoin.toNat
  else m.pcBalance.toNat - m.state.needTakePnlPc.toNat

def lpFee (amountIn : ℕ) : ℕ :=
  feeAmount amountIn m.state.swapFeeNumerator.toNat m.state.swapFeeDenominator.toNat

def swappable (amountIn : ℕ) : ℕ := amountIn - m.lpFee amountIn

def quote (inputMint : String) (amountIn : UInt64) : Except DirectSwapError VenueQuote :=
  forSide m.state.pool inputMint (sideOf m.state.coinMint m.state.pcMint inputMint) fun coin =>
    if m.reserves coin = 0 ∨ m.reserves (!coin) = 0 then
      .error (.insufficientLiquidity m.state.pool amountIn.toNat
        "a vault side is empty once earmarked profit is excluded")
    else
      let lpFee := m.lpFee amountIn.toNat
      let expectedOut := constantProductOut (m.reserves coin) (m.reserves (!coin))
        (m.swappable amountIn.toNat)
      .ok ⟨amountIn.toNat, expectedOut, lpFee,
        priceImpactPct (m.reserves coin) (m.reserves (!coin)) amountIn.toNat lpFee expectedOut⟩

end AmmV4Market

theorem feeAmount_le (amount rate denominator : ℕ) :
    feeAmount amount rate denominator ≤ amount := by
  unfold feeAmount
  split
  · exact Nat.zero_le _
  · exact Nat.min_le_right _ _

/-- A rate is at most the whole, and rounding up makes no more than the amount of it, or it takes
the amount. -/
theorem ceilDiv_cases (rate : ℕ) {d : ℕ} (hd : 0 < d) :
    (∀ amount, amount * rate ⌈/⌉ d ≤ amount) ∨ (∀ amount, amount ≤ amount * rate ⌈/⌉ d) := by
  rcases le_total rate d with h | h
  · left
    intro amount
    rw [ceilDiv_le_iff_le_mul hd, mul_comm d]
    exact Nat.mul_le_mul_left amount h
  · right
    intro amount
    by_contra! hlt
    have hge := le_mul_ceilDiv (amount * rate) hd
    have : d * (amount * rate ⌈/⌉ d) < amount * rate :=
      calc d * (amount * rate ⌈/⌉ d) < d * amount := Nat.mul_lt_mul_of_pos_left hlt hd
        _ ≤ rate * amount := Nat.mul_le_mul_right amount h
        _ = amount * rate := mul_comm _ _
    omega

/-- A rounded-up fee, capped at a fixed amount and at the amount itself, takes from a whole at most
what it takes from the parts. -/
theorem capped_add_le (a b rate cap : ℕ) {d : ℕ} (hd : 0 < d) :
    min (min ((a + b) * rate ⌈/⌉ d) cap) (a + b) ≤
      min (min (a * rate ⌈/⌉ d) cap) a + min (min (b * rate ⌈/⌉ d) cap) b := by
  have hsum := ceilDiv_add_le (a * rate) (b * rate) hd
  rw [← add_mul] at hsum
  rcases ceilDiv_cases rate hd with h | h
  · have ha := h a
    have hb := h b
    omega
  · have ha := h a
    have hb := h b
    omega

theorem feeAmount_add_le (a b rate denominator : ℕ) :
    feeAmount (a + b) rate denominator ≤
      feeAmount a rate denominator + feeAmount b rate denominator := by
  unfold feeAmount ceilDiv
  split
  · exact Nat.zero_le _
  · rename_i h
    have hd : 0 < denominator := by omega
    have hcapped := capped_add_le a b rate ((a + b) * rate ⌈/⌉ denominator +
      a * rate ⌈/⌉ denominator + b * rate ⌈/⌉ denominator) hd
    simp only [show denominator ≠ 0 by omega, ↓reduceIte]
    omega

theorem feeOn_le (schedule : TransferFeeSchedule) (amount : ℕ) :
    schedule.feeOn amount ≤ amount := by
  unfold TransferFeeSchedule.feeOn
  split
  · exact Nat.zero_le _
  · exact Nat.min_le_right _ _

theorem netOfFee_superadditive (schedule : Option TransferFeeSchedule) :
    Superadditive 0 (netOfFee schedule) := by
  cases schedule with
  | none => exact fun _ _ => le_rfl
  | some s =>
    apply Superadditive.of_fee (feeOn_le s)
    intro a b
    unfold TransferFeeSchedule.feeOn
    split
    · exact Nat.zero_le _
    · exact capped_add_le a b _ _ (by norm_num)

theorem netOfFee_le (schedule : Option TransferFeeSchedule) (amount : ℕ) :
    netOfFee schedule amount ≤ amount := by
  cases schedule with
  | none => exact le_rfl
  | some s => exact Nat.sub_le _ _

theorem feeAmount_superadditive (rate denominator : ℕ) :
    Superadditive 0 fun amount => amount - feeAmount amount rate denominator :=
  Superadditive.of_fee (fun a => feeAmount_le a _ _) fun a b => feeAmount_add_le a b _ _

/-- The floor of the source is the curve's output, and never the whole reserve. -/
theorem constantProductOut_eq {x y s : ℕ} (hx : 0 < x) (hy : 0 < y) :
    constantProductOut x y s = curveOut x y s := by
  have hlt := curveOut_lt (s := s) hx hy
  rw [curveOut_eq_div hx] at hlt ⊢
  unfold constantProductOut
  split
  · rename_i h
    obtain rfl : s = 0 := by omega
    simp
  · omega

end ScreenerBot.Direct.Venues.ConstantProduct
