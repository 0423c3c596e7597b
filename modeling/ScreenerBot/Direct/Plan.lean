import ScreenerBot.Direct.Quote

/-! The instruction list of a direct swap, in the order it runs. -/
namespace ScreenerBot.Direct

open Library Swaps

inductive Instruction where
  | setComputeUnitLimit (units : ℕ)
  | setComputeUnitPrice (microLamports : ℕ)
  /-- Idempotent: an account that exists stays as it is. -/
  | createAssociatedTokenAccount (payer owner mint program account : String)
  | transferLamports (source destination : String) (lamports : ℕ)
  | syncNative (account : String)
  | swap (accounts : SwapAccounts) (amountIn minOut : ℕ)
  | transferChecked (source mint destination authority : String) (amount decimals : ℕ)
  | closeAccount (account destination owner : String)
  deriving DecidableEq, Repr

def COMPUTE_UNIT_HEADROOM_PCT : ℕ := 30

def MIN_COMPUTE_UNITS : ℕ := 60000

def MAX_COMPUTE_UNITS : ℕ := 1400000

def clampComputeUnits (units : ℕ) : ℕ := min (max units MIN_COMPUTE_UNITS) MAX_COMPUTE_UNITS

def computeUnitLimit (venueUnits : ℕ) : ℕ :=
  clampComputeUnits (min (venueUnits * (100 + COMPUTE_UNIT_HEADROOM_PCT)) u32Max / 100)

/-- The two compute budget instructions; the price is the configured priority fee. -/
def computeBudgetInstructions (priorityFeeMicroLamports venueUnits : ℕ) : List Instruction :=
  [.setComputeUnitLimit (computeUnitLimit venueUnits),
    .setComputeUnitPrice priorityFeeMicroLamports]

/-- The wallet's token accounts of the two legs, and the programs that own them. -/
structure WalletLegs where
  inputAccount : String
  inputProgram : String
  outputAccount : String
  outputProgram : String
  deriving DecidableEq, Repr

namespace WalletLegs

/-- `ata owner mint program` is the associated token account's address. -/
def resolve (ata : String → String → String → String) (owner : String) (market : PoolMarket)
    (inputMint outputMint : String) : Except DirectSwapError WalletLegs :=
  match market.tokenProgram inputMint, market.tokenProgram outputMint with
  | some inputProgram, some outputProgram =>
    .ok ⟨ata owner inputMint inputProgram, inputProgram, ata owner outputMint outputProgram,
      outputProgram⟩
  | _, _ => .error (.pairNotInPool market.pool inputMint outputMint)

def ensureInstructions (legs : WalletLegs) (payer owner inputMint outputMint : String) :
    List Instruction :=
  [.createAssociatedTokenAccount payer owner inputMint legs.inputProgram legs.inputAccount,
    .createAssociatedTokenAccount payer owner outputMint legs.outputProgram legs.outputAccount]

end WalletLegs

/-- The transfer that moves the fee, when there is one to move. -/
def PlatformFee.transferInstruction (fee : PlatformFee) (source authority : String) :
    Option Instruction :=
  if fee.isCollectible then
    match fee.mint, fee.destination with
    | some mint, some destination =>
      if fee.isNative then some (.transferLamports authority destination fee.amount)
      else some (.transferChecked source mint destination authority fee.amount fee.decimals)
    | _, _ => Option.none
  else Option.none

structure SwapPlan where
  instructions : List Instruction
  venueComputeUnits : ℕ
  inputAccount : String
  outputAccount : String
  outputIsNative : Bool
  quote : DirectQuote
  deriving DecidableEq, Repr

/-- The token account of the wrapped SOL leg. -/
def wsolAccount (intent : DirectSwapIntent) (legs : WalletLegs) : Option String :=
  if isWsol intent.inputMint then some legs.inputAccount
  else if isWsol intent.outputMint then some legs.outputAccount
  else none

/-- Only what the pool swaps is wrapped, and nothing where the venue takes lamports itself. -/
def wrapInstructions (intent : DirectSwapIntent) (market : PoolMarket) (legs : WalletLegs)
    (quote : DirectQuote) : List Instruction :=
  let wrapAmount := if market.settlesNativeSol then 0 else quote.swapAmountIn
  if intent.wrapsNative ∧ 0 < wrapAmount then
    [.transferLamports intent.owner legs.inputAccount wrapAmount, .syncNative legs.inputAccount]
  else []

def inputFeeInstructions (intent : DirectSwapIntent) (legs : WalletLegs) (quote : DirectQuote) :
    List Instruction :=
  if quote.fee.side = .input then
    (quote.fee.transferInstruction legs.inputAccount intent.owner).toList
  else []

def swapAccounts (intent : DirectSwapIntent) (legs : WalletLegs) : SwapAccounts :=
  ⟨intent.owner, intent.inputMint, intent.outputMint, legs.inputAccount, legs.outputAccount⟩

def outputFeeInstructions (intent : DirectSwapIntent) (legs : WalletLegs) (quote : DirectQuote) :
    List Instruction :=
  if quote.fee.side = .output then
    (quote.fee.transferInstruction legs.outputAccount intent.owner).toList
  else []

def closeInstructions (intent : DirectSwapIntent) (legs : WalletLegs) : List Instruction :=
  ((wsolAccount intent legs).map fun account =>
    Instruction.closeAccount account intent.owner intent.owner).toList

/-- The list in execution order: a USDC fee on the output is read before the close, a SOL one
after it. -/
def planInstructions (priorityFee : ℕ) (intent : DirectSwapIntent) (market : PoolMarket)
    (legs : WalletLegs) (quote : DirectQuote) : List Instruction :=
  let outputFee := outputFeeInstructions intent legs quote
  computeBudgetInstructions priorityFee market.computeUnits ++
    legs.ensureInstructions intent.owner intent.owner intent.inputMint intent.outputMint ++
    wrapInstructions intent market legs quote ++
    inputFeeInstructions intent legs quote ++
    [.swap (swapAccounts intent legs) quote.swapAmountIn quote.minOut] ++
    (if quote.fee.isNative then [] else outputFee) ++
    closeInstructions intent legs ++
    (if quote.fee.isNative then outputFee else [])

def buildPlan (ata : String → String → String → String) (priorityFee : ℕ)
    (intent : DirectSwapIntent) (market : PoolMarket) (quote : DirectQuote) :
    Except DirectSwapError SwapPlan := do
  let legs ← WalletLegs.resolve ata intent.owner market intent.inputMint intent.outputMint
  match market.swapRefusal (swapAccounts intent legs) quote.swapAmountIn quote.minOut with
  | some refusal => throw refusal
  | none =>
    return {
      instructions := planInstructions priorityFee intent market legs quote
      venueComputeUnits := market.computeUnits
      inputAccount := legs.inputAccount, outputAccount := legs.outputAccount
      outputIsNative := intent.unwrapsNative, quote }

theorem resolve_ok {ata : String → String → String → String} {owner : String}
    {market : PoolMarket} {inputMint outputMint : String} {legs : WalletLegs}
    (h : WalletLegs.resolve ata owner market inputMint outputMint = .ok legs) :
    legs.inputAccount = ata owner inputMint legs.inputProgram ∧
      legs.outputAccount = ata owner outputMint legs.outputProgram := by
  unfold WalletLegs.resolve at h
  split at h
  · obtain rfl := Except.ok.inj h
    exact ⟨rfl, rfl⟩
  · cases h

theorem buildPlan_ok {ata : String → String → String → String} {priorityFee : ℕ}
    {intent : DirectSwapIntent} {market : PoolMarket} {quote : DirectQuote} {plan : SwapPlan}
    (h : buildPlan ata priorityFee intent market quote = .ok plan) :
    ∃ legs, WalletLegs.resolve ata intent.owner market intent.inputMint intent.outputMint =
        .ok legs ∧
      plan.instructions = planInstructions priorityFee intent market legs quote ∧
      plan.inputAccount = legs.inputAccount ∧ plan.outputAccount = legs.outputAccount ∧
      plan.quote = quote := by
  unfold buildPlan at h
  obtain ⟨legs, hlegs, h⟩ := bind_eq_ok.mp h
  split at h
  · cases h
  · obtain rfl := Except.ok.inj h
    exact ⟨legs, hlegs, rfl, rfl, rfl, rfl⟩

end ScreenerBot.Direct
