import ScreenerBot.Chain.Rounded
import ScreenerBot.Library.Text

/-! Paper fills: the sale or buy that two quotes of one exact-input request, taken before and after
the landing wait, settle to. Native amounts and prices are finite `f64` values. -/
namespace ScreenerBot.Trader
open Library

inductive SwapMode where
  | exactIn
  | exactOut
  deriving DecidableEq, Repr

structure QuoteRequest where
  inputMint : String
  outputMint : String
  inputAmount : ℕ
  walletAddress : String
  swapMode : SwapMode
  deriving DecidableEq, Repr

structure Quote where
  routerId : String
  inputMint : String
  outputMint : String
  inputAmount : ℕ
  outputAmount : ℕ
  minimumOutputAmount : ℕ
  priceImpactPct : ℚ
  /-- The router's estimate of the network fee. -/
  estimatedNetworkFeeLamports : Option ℕ
  swapMode : SwapMode
  walletAddress : String
  deriving DecidableEq, Repr

/-- Why a quote-based paper fill did not settle. -/
inductive PaperFillError where
  | invalidSize
  | emptySell
  | quoteUnfillable
  | minimumOutputNotMet
  deriving DecidableEq, Repr

/-- The execution model attached to a persisted paper leg. -/
inductive PaperModel where
  | legacy
  | quote
  | mark
  deriving DecidableEq, Repr

/-- When the two quotes of a fill were taken. -/
structure QuoteTimes where
  initialAt : ℤ
  landingAt : ℤ
  requestedDelayMs : ℕ
  queueDurationMs : ℕ
  deriving DecidableEq, Repr

/-- Provenance for the two router samples that define a paper fill. -/
structure PaperQuoteMetadata where
  routerId : String
  times : QuoteTimes
  minimumOutputAmount : ℕ
  finalOutputAmount : ℕ
  /-- Exact quote input. On sells this is the token quantity booked out of the paper holding. -/
  inputAmount : Option ℕ
  tokenDecimals : Option ℕ
  epoch : ℕ
  networkFeeEstimated : Bool
  platformFeeIncludedInOutput : Bool
  deriving DecidableEq, Repr

structure PaperFill where
  inputSol : ℚ
  marketPriceSol : ℚ
  pricedFromPool : Bool
  fillPriceSol : ℚ
  tokenAmount : ℚ
  referralFeeSol : ℚ
  networkFeeSol : ℚ
  priorityFeeSol : ℚ
  totalCostSol : ℚ
  model : PaperModel
  quote : Option PaperQuoteMetadata
  deriving DecidableEq, Repr

/-- A simulated sell leg with quote-derived proceeds after referral fees and estimated network
costs. -/
structure PaperSellFill where
  tokenAmount : ℚ
  marketPriceSol : ℚ
  pricedFromPool : Bool
  fillPriceSol : ℚ
  grossSol : ℚ
  referralFeeSol : ℚ
  networkFeeSol : ℚ
  priorityFeeSol : ℚ
  netProceedsSol : ℚ
  model : PaperModel
  quote : Option PaperQuoteMetadata
  deriving DecidableEq, Repr

inductive SettledPaperQuote where
  | buy (fill : PaperFill)
  | sell (fill : PaperSellFill)
  deriving DecidableEq, Repr

def exitPercentScale : ℕ := 10 ^ 9

def exitPercentDenominator : ℕ := 100 * exitPercentScale

/-- The exact raw token input of a paper sale of `exitPercentage` of a holding; `none` sells all of
it. -/
def rawSellAmount (held : ℕ) (exitPercentage : Option ℚ) : Except PaperFillError ℕ :=
  if held = 0 then .error .emptySell
  else match exitPercentage with
    | none => .ok held
    | some percentage =>
      if 100 ≤ percentage then .ok held
      else if percentage ≤ 0 then .error .invalidSize
      else
        let parts := ⌊percentage * exitPercentScale⌋.toNat
        if ¬(0 < parts ∧ parts < exitPercentDenominator) then .error .invalidSize
        else match checkedRaw (held * parts / exitPercentDenominator) with
          | none => .error .invalidSize
          | some amount => if 0 < amount ∧ amount ≤ held then .ok amount else .error .invalidSize

def quoteMatches (request : QuoteRequest) (quote : Quote) : Bool :=
  quote.inputMint == request.inputMint && quote.outputMint == request.outputMint &&
    quote.inputAmount == request.inputAmount && quote.swapMode == request.swapMode &&
    quote.walletAddress == request.walletAddress && quote.routerId.toList.any
      (!Library.isWhitespace ·) &&
    decide (0 < quote.outputAmount) && decide (0 < quote.minimumOutputAmount) &&
    decide (quote.minimumOutputAmount ≤ quote.outputAmount) && decide (0 ≤ quote.priceImpactPct)

def quoteMetadata (request : QuoteRequest) (tokenDecimals : ℕ) (initial landing : Quote)
    (times : QuoteTimes) (epoch : ℕ) : PaperQuoteMetadata where
  routerId := landing.routerId
  times := times
  minimumOutputAmount := initial.minimumOutputAmount
  finalOutputAmount := landing.outputAmount
  inputAmount := some request.inputAmount
  tokenDecimals := some tokenDecimals
  epoch := epoch
  networkFeeEstimated := true
  platformFeeIncludedInOutput := true

/-- Two samples of one request whose landing output meets what the initial one guaranteed; returns
the landing sample's network fee. -/
def checkedSamples (request : QuoteRequest) (initial landing : Quote) : Except PaperFillError ℕ :=
  if !quoteMatches request initial || !quoteMatches request landing then .error .quoteUnfillable
  else match initial.estimatedNetworkFeeLamports, landing.estimatedNetworkFeeLamports with
    | some _, some fee =>
      if landing.outputAmount < initial.minimumOutputAmount then .error .minimumOutputNotMet
      else .ok fee
    | _, _ => .error .quoteUnfillable

def nativeAssetDecimals : ℕ := 9

/-- Settles validated samples from one exact-input request. -/
def settleQuoteSamples (request : QuoteRequest) (tokenDecimals : ℕ) (initial landing : Quote)
    (times : QuoteTimes) (epoch : ℕ) : Except PaperFillError SettledPaperQuote := do
  if request.swapMode ≠ .exactIn ∨ request.inputAmount = 0 then
    throw .invalidSize
  let feeLamports ← checkedSamples request initial landing
  let networkFeeSol := Rounded.rawToNative feeLamports
  let metadata := quoteMetadata request tokenDecimals initial landing times epoch
  if isNativeAsset request.inputMint then
    if isNativeAsset request.outputMint then
      throw .quoteUnfillable
    let inputSol := Rounded.toWholeUnits request.inputAmount nativeAssetDecimals
    let tokenAmount := Rounded.toWholeUnits landing.outputAmount tokenDecimals
    let fillPriceSol := Binary64.div inputSol tokenAmount
    let totalCostSol := Binary64.add inputSol networkFeeSol
    if inputSol ≤ 0 ∨ tokenAmount ≤ 0 ∨ fillPriceSol ≤ 0 ∨ totalCostSol ≤ 0 then
      throw .quoteUnfillable
    return .buy {
      inputSol := inputSol
      marketPriceSol := fillPriceSol
      pricedFromPool := false
      fillPriceSol := fillPriceSol
      tokenAmount := tokenAmount
      referralFeeSol := 0
      networkFeeSol := networkFeeSol
      priorityFeeSol := 0
      totalCostSol := totalCostSol
      model := .quote
      quote := some metadata }
  if !isNativeAsset request.outputMint then
    throw .quoteUnfillable
  let tokenAmount := Rounded.toWholeUnits request.inputAmount tokenDecimals
  let quotedNetSol := Rounded.toWholeUnits landing.outputAmount nativeAssetDecimals
  let netProceedsSol := Binary64.sub quotedNetSol networkFeeSol
  let fillPriceSol := Binary64.div quotedNetSol tokenAmount
  if tokenAmount ≤ 0 ∨ quotedNetSol ≤ 0 ∨ netProceedsSol ≤ 0 ∨ fillPriceSol ≤ 0 then
    throw .quoteUnfillable
  return .sell {
    tokenAmount := tokenAmount
    marketPriceSol := fillPriceSol
    pricedFromPool := false
    fillPriceSol := fillPriceSol
    grossSol := quotedNetSol
    referralFeeSol := 0
    networkFeeSol := networkFeeSol
    priorityFeeSol := 0
    netProceedsSol := netProceedsSol
    model := .quote
    quote := some metadata }

/-- A buy from the initial and landing quote for its exact raw input. -/
def simulateBuy (request : QuoteRequest) (tokenDecimals : ℕ) (initial landing : Quote)
    (times : QuoteTimes) (epoch : ℕ) : Except PaperFillError PaperFill := do
  if request.swapMode ≠ .exactIn ∨ request.inputAmount = 0 then
    throw .invalidSize
  if !isNativeAsset request.inputMint || isNativeAsset request.outputMint then
    throw .quoteUnfillable
  match ← settleQuoteSamples request tokenDecimals initial landing times epoch with
  | .buy fill => return fill
  | .sell _ => throw .quoteUnfillable

/-- A sell using the exact raw token amount accepted for quoting. -/
def simulateSell (request : QuoteRequest) (tokenDecimals : ℕ) (initial landing : Quote)
    (times : QuoteTimes) (epoch : ℕ) : Except PaperFillError PaperSellFill := do
  if request.swapMode ≠ .exactIn ∨ request.inputAmount = 0 then
    throw .emptySell
  if isNativeAsset request.inputMint || !isNativeAsset request.outputMint then
    throw .quoteUnfillable
  match ← settleQuoteSamples request tokenDecimals initial landing times epoch with
  | .sell fill => return fill
  | .buy _ => throw .quoteUnfillable

end ScreenerBot.Trader
