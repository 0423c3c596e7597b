import ScreenerBot.Library.Fallible
import ScreenerBot.Library.Sorting
import ScreenerBot.Swaps.Outcome
import ScreenerBot.Trader.PaperFill

/-! Routers, their quotes, and the checks a quote passes before it is executed. -/
namespace ScreenerBot.Swaps

open Library
open Trader (SwapMode)

inductive ChainId where
  | solana
  deriving DecidableEq, Repr

def ChainId.debug : ChainId → String
  | .solana => "Solana"

def swapModeDebug : SwapMode → String
  | .exactIn => "ExactIn"
  | .exactOut => "ExactOut"

/-- A float as a router reports it: its value, where that is finite, and its text. -/
structure Reported where
  value : Option ℚ
  text : String
  deriving DecidableEq, Repr

structure QuoteRequest where
  chain : ChainId
  inputMint : String
  outputMint : String
  inputAmount : ℕ
  walletAddress : String
  slippagePct : ℚ
  swapMode : SwapMode
  excludeDexes : Option (List String)
  deriving DecidableEq, Repr

structure Quote where
  chain : ChainId
  routerId : String
  routerName : String
  inputMint : String
  outputMint : String
  inputAmount : ℕ
  outputAmount : ℕ
  minimumOutputAmount : ℕ
  priceImpactPct : Reported
  estimatedNetworkFeeLamports : Option ℕ
  slippageBps : ℕ
  swapMode : SwapMode
  walletAddress : String
  excludeDexes : Option (List String)
  deriving DecidableEq, Repr

/-- The first amount field that does not fit 64 bits. -/
def Quote.amountOutsideU64 (quote : Quote) : Option String :=
  ([("input_amount", quote.inputAmount), ("output_amount", quote.outputAmount),
    ("minimum_output_amount", quote.minimumOutputAmount)].find? fun field =>
      u64Max < field.2).map Prod.fst

structure SwapResult where
  transactionSignature : String
  inputAmount : ℕ
  outputAmount : ℕ
  deriving DecidableEq, Repr

inductive QuoteError where
  | registryUnavailable (error : String)
  | noRoutersEnabled (chain : ChainId)
  | notTradable (router detail : String)
  | noRoute (router detail : String)
  | rateLimited (router : String) (retryAfter : Option ℕ)
  | timeout (router : String)
  | routerRejected (router detail : String)
  | notOffered (router reason : String)
  | unavailable (router detail : String)
  deriving DecidableEq, Repr

def QuoteError.display : QuoteError → String
  | .registryUnavailable error => error
  | .noRoutersEnabled _ => "no swap routers are enabled for solana"
  | .notTradable router detail => s!"{router} reports the token is not tradable: {detail}"
  | .noRoute router detail => s!"{router} found no route: {detail}"
  | .rateLimited router _ => s!"{router} rate limited the quote request"
  | .timeout router => s!"{router} did not answer the quote request in time"
  | .routerRejected router detail => s!"{router} returned an unusable quote: {detail}"
  | .notOffered router reason => s!"{router} does not offer this trade: {reason}"
  | .unavailable router detail => s!"{router} could not provide a quote: {detail}"

/-- Amount range supported by the caller that consumes a swap's result. -/
inductive SwapAmountLimit where
  | unrestricted
  | u64
  deriving DecidableEq, Repr

namespace SwapAmountLimit

def checkQuote (limit : SwapAmountLimit) (quote : Quote) : Except QuoteError Unit :=
  match limit, quote.amountOutsideU64 with
  | .u64, some field => .error (.routerRejected quote.routerName
      s!"{field} exceeds the caller's u64 amount range")
  | _, _ => .ok ()

def checkResult (limit : SwapAmountLimit) (result : SwapResult) : Except Error SwapResult :=
  if limit = .u64 ∧ (u64Max < result.inputAmount ∨ u64Max < result.outputAmount) then
    .error (.swaps (.completedAmountOutOfRange result.transactionSignature result.inputAmount
      result.outputAmount))
  else .ok result

end SwapAmountLimit

structure Router where
  id : String
  name : String
  priority : ℕ
  chain : ChainId
  deriving DecidableEq, Repr

structure RouterRegistry where
  routers : List Router

namespace RouterRegistry

def getRouter (registry : RouterRegistry) (id : String) : Option Router :=
  registry.routers.find? (·.id == id)

/-- The enabled routers of a chain but the failed one, by priority. -/
def fallbackChainFor (registry : RouterRegistry) (enabled : Router → Bool) (chain : ChainId)
    (failedRouterId : String) : List Router :=
  sortBy Router.priority
    (registry.routers.filter fun r => enabled r && r.chain == chain && r.id != failedRouterId)

end RouterRegistry

/-- `RawAmount::checked_mul_div`. -/
def checkedMulDiv (amount multiplier divisor : ℕ) : Option ℕ :=
  if divisor = 0 then none else checkedRaw (amount * multiplier / divisor)

/-- A quote's output with its estimated network fee taken out. -/
def outputAfterNetworkFee (quote : Quote) (router : Router) : Except QuoteError ℕ :=
  let rejected (detail : String) : Except QuoteError ℕ :=
    .error (.routerRejected router.name detail)
  let output := quote.outputAmount
  match quote.estimatedNetworkFeeLamports with
  | none => .ok output
  | some fee =>
    if isNativeAsset quote.outputMint then
      if output ≤ fee then rejected "network fee consumes the native output"
      else .ok (output - fee)
    else if isNativeAsset quote.inputMint then
      let input := quote.inputAmount
      if input = 0 ∨ input ≤ fee then rejected "network fee consumes the native input"
      else match checkedMulDiv output fee input with
        | none => rejected "network fee conversion failed"
        | some feeInOutput =>
          if output ≤ feeInOutput then rejected "network fee consumes the quoted output"
          else .ok (output - feeInOutput)
    else .ok output

def validateQuoteWithNet (router : Router) (request : QuoteRequest) (quote : Quote) :
    Except QuoteError (Quote × ℕ) := do
  let rejected (detail : String) : QuoteError := .routerRejected router.name detail
  if quote.routerId ≠ router.id then
    throw (rejected s!"quote claims router '{quote.routerId}' but came from '{router.id}'")
  if quote.chain ≠ request.chain then
    throw (rejected s!"quoted chain {quote.chain.debug} but {request.chain.debug} was requested")
  if quote.inputMint ≠ request.inputMint ∨ quote.outputMint ≠ request.outputMint then
    throw (rejected (s!"quoted {quote.inputMint} -> {quote.outputMint} but " ++
      s!"{request.inputMint} -> {request.outputMint} was requested"))
  if quote.walletAddress ≠ request.walletAddress then
    throw (rejected "quote is addressed to a different wallet")
  if quote.inputAmount ≠ request.inputAmount then
    throw (rejected s!"quote spends {quote.inputAmount} but {request.inputAmount} was requested")
  if quote.inputAmount = 0 then
    throw (rejected "zero-input quote")
  if quote.swapMode ≠ request.swapMode then
    throw (rejected
      s!"quoted {swapModeDebug quote.swapMode} but {swapModeDebug request.swapMode} was requested")
  if quote.outputAmount = 0 then
    throw (rejected s!"zero-output quote for {quote.inputMint} -> {quote.outputMint}")
  if quote.minimumOutputAmount = 0 then
    throw (rejected "quote guarantees no minimum output")
  if quote.outputAmount < quote.minimumOutputAmount then
    throw (rejected (s!"guaranteed minimum {quote.minimumOutputAmount} exceeds the expected " ++
      s!"output {quote.outputAmount}"))
  if quote.priceImpactPct.value.all (· < 0) then
    throw (rejected s!"unusable price impact {quote.priceImpactPct.text}")
  let net ← outputAfterNetworkFee quote router
  return (quote, net)

/-- A router's answer is untrusted: the last point where a quote for another trade, or one that
guarantees nothing, is refused. -/
def validateQuote (router : Router) (request : QuoteRequest) (quote : Quote) :
    Except QuoteError Quote :=
  (validateQuoteWithNet router request quote).map Prod.fst

/-- The trade a quote prices is the one asked for. -/
structure Quote.Prices (quote : Quote) (request : QuoteRequest) : Prop where
  chain : quote.chain = request.chain
  inputMint : quote.inputMint = request.inputMint
  outputMint : quote.outputMint = request.outputMint
  inputAmount : quote.inputAmount = request.inputAmount
  walletAddress : quote.walletAddress = request.walletAddress
  swapMode : quote.swapMode = request.swapMode

/-- A quote that passes is the router's own, for the trade asked for. -/
theorem validateQuote_eq_ok {router : Router} {request : QuoteRequest} {quote valid : Quote}
    (h : validateQuote router request quote = .ok valid) :
    valid = quote ∧ quote.routerId = router.id ∧ quote.Prices request := by
  unfold validateQuote at h
  cases hnet : validateQuoteWithNet router request quote with
  | error e =>
    rw [hnet] at h
    cases h
  | ok checked =>
    rw [hnet] at h
    unfold validateQuoteWithNet at hnet
    obtain ⟨hrouter, hnet⟩ := refuse_eq_ok.mp hnet
    obtain ⟨hchain, hnet⟩ := refuse_eq_ok.mp hnet
    obtain ⟨hpair, hnet⟩ := refuse_eq_ok.mp hnet
    obtain ⟨hwallet, hnet⟩ := refuse_eq_ok.mp hnet
    obtain ⟨hinput, hnet⟩ := refuse_eq_ok.mp hnet
    obtain ⟨-, hnet⟩ := refuse_eq_ok.mp hnet
    obtain ⟨hmode, hnet⟩ := refuse_eq_ok.mp hnet
    obtain ⟨-, hnet⟩ := refuse_eq_ok.mp hnet
    obtain ⟨-, hnet⟩ := refuse_eq_ok.mp hnet
    obtain ⟨-, hnet⟩ := refuse_eq_ok.mp hnet
    obtain ⟨-, hnet⟩ := refuse_eq_ok.mp hnet
    obtain ⟨net, -, hnet⟩ := bind_eq_ok.mp hnet
    rw [not_or, not_not, not_not] at hpair
    obtain rfl := Except.ok.inj hnet
    exact ⟨(Except.ok.inj h).symm, not_not.mp hrouter, not_not.mp hchain, hpair.1, hpair.2,
      not_not.mp hinput, not_not.mp hwallet, not_not.mp hmode⟩

end ScreenerBot.Swaps
