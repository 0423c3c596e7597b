import ScreenerBot.Chain.Amount
import ScreenerBot.Library.Fallible
import ScreenerBot.Swaps.Outcome

/-! What a direct swap is asked for, what its pool answers, and the quote assembled from both: the
platform fee, the slippage floor, and what the wallet keeps. -/
namespace ScreenerBot.Direct

open Library Swaps

inductive ProgramKind where
  | raydiumCpmm
  | raydiumLegacyAmm
  | raydiumClmm
  | orcaWhirlpool
  | meteoraDamm
  | meteoraDlmm
  | meteoraDbc
  | pumpFunAmm
  | pumpFunLegacy
  | moonit
  | fluxbeamAmm
  | unknown
  deriving DecidableEq, Repr

/-- The slippage the engine accepts at most, in basis points. -/
def MAX_SLIPPAGE_BPS : ℕ := 5000

def BPS_DENOMINATOR : ℕ := 10000

def PLATFORM_FEE_BPS : ℕ := 50

def FEE_WALLET : String := "D6g8i5HkpesqiYF6YVCL93QD3py5gYwYU9ZrcRfBSayN"

def FEE_TOKEN_ACCOUNT_USDC : String := "GqnJw7x5Ss6jR5XU65v3siWmWaMae5VanxaCv7XU742v"

def isWsol (mint : String) : Bool := mint == solMint

structure DirectSwapIntent where
  pool : String
  owner : String
  inputMint : String
  outputMint : String
  /-- The total the wallet gives up, platform fee included. -/
  amountIn : ℕ
  slippageBps : ℕ
  deriving DecidableEq, Repr

namespace DirectSwapIntent

def validate (intent : DirectSwapIntent) : Except DirectSwapError Unit := do
  if intent.amountIn = 0 then throw (.invalidRequest "amount_in is zero")
  if intent.inputMint = intent.outputMint then
    throw (.invalidRequest s!"input and output mint are both {intent.inputMint}")
  if MAX_SLIPPAGE_BPS < intent.slippageBps then
    throw (.invalidRequest
      s!"slippage {intent.slippageBps} bps exceeds the {MAX_SLIPPAGE_BPS} bps ceiling")

def wrapsNative (intent : DirectSwapIntent) : Bool := isWsol intent.inputMint

def unwrapsNative (intent : DirectSwapIntent) : Bool := isWsol intent.outputMint

end DirectSwapIntent

/-- The leg the platform fee is taken from. -/
inductive FeeSide where
  | input
  | output
  | none
  deriving DecidableEq, Repr

def isReferenceMint (mint : String) : Bool := mint == solMint || mint == usdcMint

/-- The output leg is preferred; a pair without a reference mint pays nothing. -/
def FeeSide.forPair (inputMint outputMint : String) : FeeSide :=
  if isReferenceMint outputMint then .output
  else if isReferenceMint inputMint then .input
  else .none

/-- The fee on `amount` raw units, rounded down. -/
def platformFeeAmount (amount : ℕ) : ℕ := amount * PLATFORM_FEE_BPS / BPS_DENOMINATOR

structure PlatformFee where
  side : FeeSide
  amount : ℕ
  mint : Option String
  /-- The fee wallet for a SOL fee, paid in lamports; its USDC account for a USDC fee. -/
  destination : Option String
  decimals : ℕ
  deriving DecidableEq, Repr

/-- The mint of the leg a side names. -/
def FeeSide.leg (side : FeeSide) (inputMint outputMint : String) : Option String :=
  match side with
  | .input => some inputMint
  | .output => some outputMint
  | .none => Option.none

namespace PlatformFee

def none : PlatformFee := ⟨.none, 0, Option.none, Option.none, 0⟩

def resolve (side : FeeSide) (inputMint outputMint : String) (base : ℕ) :
    Except DirectSwapError PlatformFee :=
  let onReference (reference : String) : Except DirectSwapError PlatformFee :=
    if reference = solMint then
      .ok ⟨side, platformFeeAmount base, some solMint, some FEE_WALLET, 9⟩
    else if reference = usdcMint then
      .ok ⟨side, platformFeeAmount base, some usdcMint, some FEE_TOKEN_ACCOUNT_USDC, 6⟩
    else
      .error (.invalidRequest "fee side resolved without a reference mint on either leg")
  match side with
  | .none => .ok none
  | .input => onReference inputMint
  | .output => onReference outputMint

/-- A fee stands on a leg of its pair, in that leg's mint, and goes where fees in that mint go. -/
def PaidOn (fee : PlatformFee) (inputMint outputMint : String) : Prop :=
  fee.side = .none ∧ fee = none ∨
    ∃ mint, fee.side.leg inputMint outputMint = some mint ∧ fee.mint = some mint ∧
      (mint = solMint ∧ fee.destination = some FEE_WALLET ∨
        mint = usdcMint ∧ fee.destination = some FEE_TOKEN_ACCOUNT_USDC)

/-- What a resolved fee says: no side and no fee, or the rate on the named leg, paid where a fee in
that leg's mint goes. -/
theorem resolve_cases {side : FeeSide} {inputMint outputMint : String} {base : ℕ}
    {fee : PlatformFee} (h : resolve side inputMint outputMint base = .ok fee) :
    fee.side = side ∧ fee.amount ≤ platformFeeAmount base ∧
      fee.PaidOn inputMint outputMint := by
  unfold resolve at h
  cases side with
  | none =>
    obtain rfl := Except.ok.inj h
    exact ⟨rfl, Nat.zero_le _, .inl ⟨rfl, rfl⟩⟩
  | input =>
    dsimp only at h
    split_ifs at h with hsol husdc
    · obtain rfl := Except.ok.inj h
      exact ⟨rfl, le_rfl, .inr ⟨inputMint, rfl, by rw [hsol], .inl ⟨hsol, rfl⟩⟩⟩
    · obtain rfl := Except.ok.inj h
      exact ⟨rfl, le_rfl, .inr ⟨inputMint, rfl, by rw [husdc], .inr ⟨husdc, rfl⟩⟩⟩
  | output =>
    dsimp only at h
    split_ifs at h with hsol husdc
    · obtain rfl := Except.ok.inj h
      exact ⟨rfl, le_rfl, .inr ⟨outputMint, rfl, by rw [hsol], .inl ⟨hsol, rfl⟩⟩⟩
    · obtain rfl := Except.ok.inj h
      exact ⟨rfl, le_rfl, .inr ⟨outputMint, rfl, by rw [husdc], .inr ⟨husdc, rfl⟩⟩⟩

def isCollectible (fee : PlatformFee) : Bool :=
  decide (0 < fee.amount) && fee.mint.isSome && fee.destination.isSome

/-- A SOL fee leaves the wallet itself as lamports, not a token account. -/
def isNative (fee : PlatformFee) : Bool := fee.mint == some solMint

end PlatformFee

structure VenueQuote where
  amountIn : ℕ
  expectedOut : ℕ
  lpFee : ℕ
  priceImpactPct : ℚ
  deriving DecidableEq, Repr

/-- The expected output less the tolerance, rounded down. -/
def minOutAfterSlippage (expectedOut slippageBps : ℕ) : ℕ :=
  expectedOut * (BPS_DENOMINATOR - min slippageBps BPS_DENOMINATOR) / BPS_DENOMINATOR

theorem minOutAfterSlippage_le (expectedOut slippageBps : ℕ) :
    minOutAfterSlippage expectedOut slippageBps ≤ expectedOut := by
  unfold minOutAfterSlippage
  apply Nat.div_le_of_le_mul
  rw [Nat.mul_comm BPS_DENOMINATOR]
  exact Nat.mul_le_mul_left _ (Nat.sub_le _ _)

structure DirectQuote where
  pool : String
  program : ProgramKind
  inputMint : String
  outputMint : String
  amountIn : ℕ
  /-- The part of `amountIn` that reaches the pool. -/
  swapAmountIn : ℕ
  expectedOut : ℕ
  /-- The floor the chain enforces on the pool's output. -/
  minOut : ℕ
  expectedNetOut : ℕ
  /-- What the wallet keeps at least, after a fee on the output. -/
  minNetOut : ℕ
  fee : PlatformFee
  lpFee : ℕ
  priceImpactPct : ℚ
  slippageBps : ℕ
  deriving DecidableEq, Repr

/-- The fee as it is charged: on the output it is sized off the expected output and capped by the
floor. -/
def PlatformFee.charged (inputFee : PlatformFee) (intent : DirectSwapIntent)
    (expectedOut minOut : ℕ) : Except DirectSwapError PlatformFee :=
  match inputFee.side with
  | .output =>
    (resolve .output intent.inputMint intent.outputMint expectedOut).map
      fun fee => { fee with amount := min fee.amount minOut }
  | _ => .ok inputFee

/-- What the wallet keeps of what the pool returns. -/
def PlatformFee.net (fee : PlatformFee) (out : ℕ) : ℕ :=
  match fee.side with
  | .output => out - fee.amount
  | _ => out

def DirectQuote.assemble (intent : DirectSwapIntent) (program : ProgramKind) (swapAmountIn : ℕ)
    (venueQuote : VenueQuote) (inputFee : PlatformFee) : Except DirectSwapError DirectQuote := do
  if venueQuote.expectedOut = 0 then
    throw (.insufficientLiquidity intent.pool intent.amountIn
      "the pool returns nothing for this size")
  let minOut := minOutAfterSlippage venueQuote.expectedOut intent.slippageBps
  if minOut = 0 then
    throw (.insufficientLiquidity intent.pool intent.amountIn
      "slippage tolerance reduces the guaranteed output to zero")
  let fee ← inputFee.charged intent venueQuote.expectedOut minOut
  if fee.net minOut = 0 then
    throw (.insufficientLiquidity intent.pool intent.amountIn
      "the platform fee consumes the entire guaranteed output")
  return {
    pool := intent.pool, program, inputMint := intent.inputMint, outputMint := intent.outputMint,
    amountIn := intent.amountIn, swapAmountIn, expectedOut := venueQuote.expectedOut, minOut,
    expectedNetOut := fee.net venueQuote.expectedOut, minNetOut := fee.net minOut, fee,
    lpFee := venueQuote.lpFee, priceImpactPct := venueQuote.priceImpactPct,
    slippageBps := intent.slippageBps }

/-- The sums of a quote: the input is what is swapped and a fee on it, and what the pool returns at
least is what the wallet keeps at least and a fee on it. -/
structure DirectQuote.Balanced (intent : DirectSwapIntent) (quote : DirectQuote) : Prop where
  distinct : intent.inputMint ≠ intent.outputMint
  paid : quote.fee.PaidOn intent.inputMint intent.outputMint
  swapped : 0 < quote.swapAmountIn
  input : quote.swapAmountIn + (if quote.fee.side = .input then quote.fee.amount else 0) =
    intent.amountIn
  output : quote.minNetOut + (if quote.fee.side = .output then quote.fee.amount else 0) =
    quote.minOut
  kept : 0 < quote.minNetOut

theorem platformFeeAmount_le (amount : ℕ) : platformFeeAmount amount ≤ amount := by
  unfold platformFeeAmount PLATFORM_FEE_BPS BPS_DENOMINATOR
  omega

structure SwapAccounts where
  owner : String
  inputMint : String
  outputMint : String
  inputTokenAccount : String
  outputTokenAccount : String
  deriving DecidableEq, Repr

/-- A loaded pool: what it trades, what it quotes, and how it is swapped against. -/
structure PoolMarket where
  program : ProgramKind
  pool : String
  mints : String × String
  tokenProgram : String → Option String
  quote : String → ℕ → Except DirectSwapError VenueQuote
  /-- Why the swap instruction cannot be built, when it cannot. -/
  swapRefusal : SwapAccounts → ℕ → ℕ → Option DirectSwapError
  computeUnits : ℕ
  /-- Whether its SOL leg moves as the wallet's own lamports. -/
  settlesNativeSol : Bool

def PoolMarket.trades (market : PoolMarket) (inputMint outputMint : String) : Bool :=
  decide (inputMint = market.mints.1 ∧ outputMint = market.mints.2 ∨
    inputMint = market.mints.2 ∧ outputMint = market.mints.1)

/-- Price `intent` against a loaded market: the side from the mints alone, the fee on the input,
the pool's quote on what is left, then the fee on the output. -/
def quoteWithMarket (intent : DirectSwapIntent) (market : PoolMarket) :
    Except DirectSwapError DirectQuote := do
  intent.validate
  if market.trades intent.inputMint intent.outputMint = false then
    throw (.pairNotInPool market.pool intent.inputMint intent.outputMint)
  let side := FeeSide.forPair intent.inputMint intent.outputMint
  let base := if side = .input then intent.amountIn else 0
  let inputFee ← PlatformFee.resolve side intent.inputMint intent.outputMint base
  let swapAmountIn := if side = .input then intent.amountIn - inputFee.amount else intent.amountIn
  if swapAmountIn = 0 then
    throw (.invalidRequest "the platform fee consumes the entire input at this size")
  let venueQuote ← market.quote intent.inputMint swapAmountIn
  DirectQuote.assemble intent market.program swapAmountIn venueQuote inputFee

/-- A charged fee keeps its side; only one on the output is sized anew, and the floor covers it. -/
theorem charged_cases {intent : DirectSwapIntent} {expectedOut minOut : ℕ}
    {inputFee fee : PlatformFee}
    (h : inputFee.charged intent expectedOut minOut = .ok fee)
    (hpaid : inputFee.PaidOn intent.inputMint intent.outputMint) :
    fee.side = inputFee.side ∧ (inputFee.side ≠ .output → fee = inputFee) ∧
      (fee.side = .output → fee.amount ≤ minOut) ∧
      fee.PaidOn intent.inputMint intent.outputMint := by
  unfold PlatformFee.charged at h
  split at h
  next hside =>
    cases hresolve : PlatformFee.resolve .output intent.inputMint intent.outputMint expectedOut with
    | error e => simp [hresolve, Except.map] at h
    | ok resolved =>
      obtain ⟨hkept, -, hon⟩ := PlatformFee.resolve_cases hresolve
      simp only [hresolve, Except.map, Except.ok.injEq] at h
      subst h
      refine ⟨hkept.trans hside.symm, fun hne => absurd hside hne, fun _ => min_le_right _ _, ?_⟩
      obtain ⟨hnone, -⟩ | hon := hon
      · rw [hkept] at hnone
        cases hnone
      · exact .inr hon
  next hside =>
    obtain rfl := Except.ok.inj h
    exact ⟨rfl, fun _ => rfl, fun hout => absurd hout hside, hpaid⟩

theorem net_add {fee : PlatformFee} {out : ℕ} (h : fee.side = .output → fee.amount ≤ out) :
    fee.net out + (if fee.side = .output then fee.amount else 0) = out := by
  unfold PlatformFee.net
  cases hside : fee.side with
  | output =>
    have := h hside
    simp only [if_true]
    omega
  | input => simp
  | none => simp

theorem assemble_ok {intent : DirectSwapIntent} {program : ProgramKind} {swapAmountIn : ℕ}
    {venueQuote : VenueQuote} {inputFee : PlatformFee} {quote : DirectQuote}
    (h : DirectQuote.assemble intent program swapAmountIn venueQuote inputFee = .ok quote) :
    ∃ fee, inputFee.charged intent venueQuote.expectedOut quote.minOut = .ok fee ∧
      quote.fee = fee ∧ quote.swapAmountIn = swapAmountIn ∧
      quote.minNetOut = fee.net quote.minOut ∧ fee.net quote.minOut ≠ 0 := by
  unfold DirectQuote.assemble at h
  obtain ⟨-, h⟩ := refuse_eq_ok.mp h
  obtain ⟨-, h⟩ := refuse_eq_ok.mp h
  obtain ⟨fee, hfee, h⟩ := bind_eq_ok.mp h
  obtain ⟨hkept, h⟩ := refuse_eq_ok.mp h
  obtain rfl := Except.ok.inj h
  exact ⟨fee, hfee, rfl, rfl, rfl, hkept⟩

theorem validate_ok {intent : DirectSwapIntent} (h : intent.validate = .ok ()) :
    intent.inputMint ≠ intent.outputMint := by
  unfold DirectSwapIntent.validate at h
  obtain ⟨-, h⟩ := refuse_eq_ok.mp h
  exact (refuse_eq_ok.mp h).1

/-- The sums of every quote the engine accepts. -/
theorem quoteWithMarket_balanced {intent : DirectSwapIntent} {market : PoolMarket}
    {quote : DirectQuote} (h : quoteWithMarket intent market = .ok quote) :
    quote.Balanced intent := by
  unfold quoteWithMarket at h
  obtain ⟨_, hvalid, h⟩ := bind_eq_ok.mp h
  obtain ⟨-, h⟩ := refuse_eq_ok.mp h
  obtain ⟨inputFee, hresolve, h⟩ := bind_eq_ok.mp h
  obtain ⟨hswapped, h⟩ := refuse_eq_ok.mp h
  obtain ⟨venueQuote, -, h⟩ := bind_eq_ok.mp h
  obtain ⟨hside, hamount, hpaid⟩ := PlatformFee.resolve_cases hresolve
  obtain ⟨fee, hcharged, rfl, hswap, hnet, hkept⟩ := assemble_ok h
  obtain ⟨hfeeSide, hsame, hcovered, hon⟩ := charged_cases hcharged hpaid
  refine ⟨validate_ok hvalid, hon, ?_, ?_, ?_, ?_⟩
  · rw [hswap]
    exact Nat.pos_of_ne_zero hswapped
  · rw [hswap, hfeeSide, hside]
    by_cases hin : FeeSide.forPair intent.inputMint intent.outputMint = .input
    · -- the fee on the input is at most half a percent of it, so nothing is truncated away
      have hfee : quote.fee = inputFee := hsame (by rw [hside, hin]; decide)
      rw [if_pos hin] at hamount
      have hbound := platformFeeAmount_le intent.amountIn
      rw [if_pos hin, if_pos hin, hfee]
      omega
    · simp [hin]
  · rw [hnet]
    exact net_add hcovered
  · rw [hnet]
    exact Nat.pos_of_ne_zero hkept

end ScreenerBot.Direct
