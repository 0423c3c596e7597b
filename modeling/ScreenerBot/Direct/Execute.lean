import ScreenerBot.Direct.Receipt

/-! Executing a plan: the balance check, the gate, the send with its settle loop, and the
receipt. -/
namespace ScreenerBot.Swaps

/-- The text of a reason a swap was not submitted. -/
def NotSubmittedReason.display : NotSubmittedReason → String
  | .buildUnavailable error => s!"the transaction could not be built: {error}"
  | .buildUnusable detail => s!"the built transaction is unusable: {detail}"
  | .transactionTooLarge bytes limit =>
      s!"the transaction is {bytes} bytes, over the {limit}-byte limit"
  | .unsupportedFormat version =>
      s!"the transaction uses message version {version}, which this build cannot send"
  | .requestRejected detail => s!"a node refused the request: {detail}"
  | .simulationFailed detail => s!"the transaction failed simulation: {detail}"
  | .costExceeded extraRaw venue _ =>
      s!"it would spend {extraRaw} raw native units beyond the trade, " ++
        s!"on an account owned by {venue}"
  | .simulationUnavailable detail => s!"the transaction could not be simulated: {detail}"
  | .insufficientFunds requiredRaw availableRaw =>
      s!"the wallet holds {availableRaw} raw native units, the trade needs {requiredRaw}"
  | .paperScope => "swap execution is refused while paper trading"
  | .halted => "trading is halted by a force stop"
  | .routerUnavailable detail => s!"the router is unavailable: {detail}"
  | .signerUnavailable detail => s!"the signing key could not be loaded: {detail}"
  | .quoteUnusable detail => s!"the quote cannot be executed: {detail}"
  | .servicePaused detail =>
      s!"chain access through the ScreenerBot service is paused: {detail}"

/-- A gate refusal in the engine's vocabulary. -/
def DirectSwapError.ofNotSubmitted : NotSubmittedReason → DirectSwapError
  | .transactionTooLarge bytes limit => .transactionTooLarge bytes limit
  | .requestRejected detail | .simulationFailed detail => .simulationRejected detail []
  | .simulationUnavailable detail => .simulationUnavailable detail
  | other => .build other.display

end ScreenerBot.Swaps

namespace ScreenerBot.Direct

open Library Swaps

def MEASURED_SAFETY_MARGIN_PCT : ℕ := 15

def MEASURED_SAFETY_FLAT_UNITS : ℕ := 2000

def BASE_SIGNATURE_FEE_LAMPORTS : ℕ := 5000

def NETWORK_FEE_HEADROOM_PCT : ℕ := 20

def RECEIPT_READ_ATTEMPTS : ℕ := 6

def TOKEN_ACCOUNT_LEN : ℕ := 165

def saturatingMulU64 (a b : ℕ) : ℕ := min (a * b) u64Max

def computeUnitLimitFromMeasured (unitsConsumed : ℕ) : ℕ :=
  let withMargin := saturatingAddU64
    (saturatingMulU64 unitsConsumed (100 + MEASURED_SAFETY_MARGIN_PCT) / 100)
    MEASURED_SAFETY_FLAT_UNITS
  clampComputeUnits (min withMargin u32Max)

/-- The compute unit limit a plan's first instruction requests. -/
def requestedComputeUnitLimit : List Instruction → Option ℕ
  | .setComputeUnitLimit units :: _ => some units
  | _ => none

/-- The compute unit price a plan's second instruction requests. -/
def requestedComputeUnitPrice : List Instruction → Option ℕ
  | _ :: .setComputeUnitPrice microLamports :: _ => some microLamports
  | _ => none

def networkFeeLamports (priorityFee : ℕ) (instructions : List Instruction) : ℕ :=
  let limit := (requestedComputeUnitLimit instructions).getD MAX_COMPUTE_UNITS
  let price := (requestedComputeUnitPrice instructions).getD priorityFee
  saturatingAddU64 ((saturatingMulU64 limit price + 999999) / 1000000) BASE_SIGNATURE_FEE_LAMPORTS

def networkFeeCushionLamports (priorityFee : ℕ) (plan : SwapPlan) : ℕ :=
  saturatingMulU64 (networkFeeLamports priorityFee plan.instructions)
    (100 + NETWORK_FEE_HEADROOM_PCT) / 100

/-- The own RPC client, where the access mode provides it. -/
def directNode (operation : String) : Attempt NodeCall DirectSwapError Unit :=
  Attempt.performWith (.nodeUnavailable operation) (.directNode operation)

def ataRentLamports : Attempt NodeCall DirectSwapError ℕ :=
  Attempt.performWith (fun error => .nodeUnavailable "getMinimumBalanceForRentExemption"
    ("could not read the ATA rent-exempt minimum: solana rpc getMinimumBalanceForRentExemption " ++
      s!"failed: {error.display}")) (.rentMinimum TOKEN_ACCOUNT_LEN)

/-- The rent of the accounts that are missing. -/
def rentCushionFor (missingAccounts : ℕ) : Attempt NodeCall DirectSwapError ℕ :=
  if missingAccounts = 0 then pure 0
  else do return saturatingMulU64 (← ataRentLamports) missingAccounts

/-- The balance of the input's token account; one that does not exist holds nothing. -/
def tokenBalanceOf (plan : SwapPlan) : Option Account → Except DirectSwapError ℕ
  | none => .ok 0
  | some account => match u64At account.data 64 with
    | some amount => .ok amount
    | none => .error (.accountUnavailable plan.inputAccount
        "source token-account data is malformed")

/-- Whether the wallet covers the input, the rents and the network fee. -/
def affordable (priorityFee : ℕ) (plan : SwapPlan) (ownerLamports : ℕ)
    (inputAccount : Option Account) (rentCushion : ℕ) : Except DirectSwapError Unit := do
  let networkCushion := networkFeeCushionLamports priorityFee plan
  if isWsol plan.quote.inputMint then
    let required := saturatingAddU64 (saturatingAddU64 plan.quote.amountIn rentCushion)
      networkCushion
    if ownerLamports < required then
      throw (.insufficientBalance plan.quote.inputMint required ownerLamports)
  else
    let tokenBalance ← tokenBalanceOf plan inputAccount
    if tokenBalance < plan.quote.amountIn then
      throw (.insufficientBalance plan.quote.inputMint plan.quote.amountIn tokenBalance)
    let requiredLamports := saturatingAddU64 rentCushion networkCushion
    if ownerLamports < requiredLamports then
      throw (.insufficientBalance solMint requiredLamports ownerLamports)

/-- Refuse a swap the wallet cannot afford. A short reply is no reading of zero; an account that
does not exist is one. -/
def preflightBalance (priorityFee : ℕ) (plan : SwapPlan) (owner : String) :
    Attempt NodeCall DirectSwapError Unit := do
  directNode "getMultipleAccounts"
  let accounts ← Attempt.performWith (fun error => .accountUnavailable owner
      s!"could not read wallet balances for preflight: {error.display}")
    (.multipleAccounts [owner, plan.inputAccount, plan.outputAccount])
  match accounts with
  | [] => throw (.accountUnavailable owner
      "getMultipleAccounts returned no entry for the preflight balance batch")
  | [_] => throw (.accountUnavailable plan.inputAccount
      "getMultipleAccounts returned no input token-account entry")
  | [_, _] => throw (.accountUnavailable plan.outputAccount
      "getMultipleAccounts returned no output token-account entry")
  | wallet :: inputAccount :: outputAccount :: _ => do
    let rentCushion ← rentCushionFor (inputAccount.isNone.toNat + outputAccount.isNone.toNat)
    ExceptT.mk (pure (affordable priorityFee plan ((wallet.map (·.lamports)).getD 0) inputAccount
      rentCushion))

/-- Only a cleared transaction goes on to the send. -/
def clearedBy : Verdict → Except DirectSwapError SimulationOutcome
  | .cleared outcome => .ok outcome
  | .failed outcome => .error (.simulationRejected outcome.failureDetail outcome.logs)
  | .refused reason => .error (.ofNotSubmitted reason)
  | .nodeUnavailable detail =>
      .error (.simulationUnavailable s!"simulation could not be run: {detail}")

/-- The instructions with the compute limit the simulation measured, where that is lower. -/
def tightened (instructions : List Instruction) (outcome : SimulationOutcome) :
    List Instruction :=
  match outcome.unitsConsumed, requestedComputeUnitLimit instructions with
  | some units, some requested =>
    if computeUnitLimitFromMeasured units < requested then
      instructions.set 0 (.setComputeUnitLimit (computeUnitLimitFromMeasured units))
    else instructions
  | _, _ => instructions

/-- Only a send the node refused as a request is a failed submission. -/
def submitFailure : NotSubmittedReason → DirectSwapError
  | .requestRejected detail => .submitFailed detail
  | other => .ofNotSubmitted other

/-- The settle verdict in the engine's vocabulary. -/
def settledResult (signature : String) : Settled → Except DirectSwapError String
  | .landed => .ok signature
  | .reverted detail => .error (.transactionFailed signature detail)
  | .expired lastValidBlockHeight currentBlockHeight =>
      .error (.blockhashExpired signature lastValidBlockHeight currentBlockHeight)
  | .unsettled waitedMs => .error (.confirmationTimeout signature waitedMs)

def sendSettled (transaction : VersionedTransaction) (lastValidBlockHeight timeoutMs : ℕ)
    (rounds : List Round) : Attempt NodeCall DirectSwapError String := do
  match ← ExceptT.lift
      (sendAndSettle transaction (some lastValidBlockHeight) timeoutMs rounds).run with
  | .error reason => throw (submitFailure reason)
  | .ok (signature, settled) => ExceptT.mk (pure (settledResult signature settled))

/-- The transaction's details, asked for again while the node has none. -/
def readDetails (signature : String) : ℕ → Program NodeCall (Option TransactionDetails)
  | 0 => pure none
  | attempts + 1 => do
    match ← Program.perform (.transactionDetails signature) with
    | .ok details => return some details
    | .error _ => readDetails signature attempts

/-- The receipt of a landed swap; one that cannot be read back is the guaranteed floor. -/
def readReceipt (signature owner : String) (plan : SwapPlan) :
    Attempt NodeCall DirectSwapError Receipt := do
  directNode "getTransaction"
  match ← ExceptT.lift (readDetails signature RECEIPT_READ_ATTEMPTS) with
  | some details => ExceptT.mk (pure (receiptFromTransaction signature owner plan details))
  | none => return ⟨plan.quote.minNetOut, false, 0, 0⟩

structure DirectSwapOutcome where
  signature : String
  amountIn : ℕ
  receipt : Receipt
  platformFee : ℕ
  platformFeeMint : Option String
  deriving DecidableEq, Repr

/-- The signed transaction that passed the gate, and the height its blockhash is valid through.
`sign` signs the instructions over a blockhash. -/
def prepare (priorityFee : ℕ) (sign : List Instruction → String → VersionedTransaction)
    (owner : String) (plan : SwapPlan) :
    Attempt NodeCall DirectSwapError (VersionedTransaction × ℕ) := do
  directNode "getLatestBlockhash"
  preflightBalance priorityFee plan owner
  let (blockhash, lastValidBlockHeight) ← Attempt.performWith
    (fun error => .nodeUnavailable "getLatestBlockhash" s!"no recent blockhash: {error.display}")
    .latestBlockhash
  let verdict ← ExceptT.lift (gate (sign plan.instructions blockhash))
  let outcome ← ExceptT.mk (pure (clearedBy verdict))
  return (sign (tightened plan.instructions outcome) blockhash, lastValidBlockHeight)

/-- Build, sign, simulate, send, settle and verify a plan. The rounds are what the clock reads in
the settle loop. -/
def executePlan (priorityFee : ℕ) (sign : List Instruction → String → VersionedTransaction)
    (owner : String) (timeoutMs : ℕ) (rounds : List Round) (plan : SwapPlan) :
    Attempt NodeCall DirectSwapError DirectSwapOutcome := do
  let (transaction, lastValidBlockHeight) ← prepare priorityFee sign owner plan
  let signature ← sendSettled transaction lastValidBlockHeight timeoutMs rounds
  let receipt ← readReceipt signature owner plan
  return ⟨signature, plan.quote.amountIn, receipt, plan.quote.fee.amount, plan.quote.fee.mint⟩

end ScreenerBot.Direct
