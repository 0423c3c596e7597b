import Mathlib

/-! What a failed swap leaves behind, read from the type of its error. -/
namespace ScreenerBot.Swaps

/-- Why a swap stopped before its transaction was sent. -/
inductive NotSubmittedReason where
  | buildUnavailable (error : String)
  | buildUnusable (detail : String)
  | transactionTooLarge (bytes limit : ℕ)
  | unsupportedFormat (version : ℕ)
  | requestRejected (detail : String)
  | simulationFailed (detail : String)
  | costExceeded (extraRaw : ℕ) (venue venueAddress : String)
  | simulationUnavailable (detail : String)
  | insufficientFunds (requiredRaw availableRaw : ℕ)
  | paperScope
  | halted
  | routerUnavailable (detail : String)
  | signerUnavailable (detail : String)
  | quoteUnusable (detail : String)
  | servicePaused (detail : String)
  deriving DecidableEq, Repr

inductive SwapExecutionError where
  | notSubmitted (router : String) (reason : NotSubmittedReason)
  | completedAmountOutOfRange (signature : String) (inputAmount outputAmount : ℕ)
  deriving DecidableEq, Repr

/-- Why an on-chain execution failed. -/
inductive ExecutionFailure where
  | notFound (reference : String)
  | confirmationTimeout (reference : String) (waitedMs : ℕ)
  | indexingDelay (reference : String)
  | reverted (reference detail : String)
  | expired (reference : String) (lastValidBlockHeight currentBlockHeight : ℕ)
  deriving DecidableEq, Repr

inductive DirectSwapError where
  | unsupportedVenue (program : String)
  | poolUndecodable (pool detail : String)
  | pairNotInPool (pool inputMint outputMint : String)
  | poolNotTradable (pool detail : String)
  | insufficientLiquidity (pool : String) (amountIn : ℕ) (detail : String)
  | invalidRequest (detail : String)
  | accountUnavailable (address detail : String)
  | nodeUnavailable (operation detail : String)
  | quoteMath (detail : String)
  | build (detail : String)
  | simulationRejected (detail : String) (logs : List String)
  | transactionTooLarge (bytes limit : ℕ)
  | simulationUnavailable (detail : String)
  | submitFailed (detail : String)
  | blockhashExpired (signature : String) (lastValidBlockHeight currentBlockHeight : ℕ)
  | confirmationTimeout (signature : String) (waitedMs : ℕ)
  | transactionFailed (signature detail : String)
  | outputNotReceived (signature : String) (expectedMinimum received : ℕ)
  | insufficientBalance (mint : String) (required available : ℕ)
  | marketMoved (pool : String) (acceptedMinNetOut freshExpectedNetOut : ℕ)
  deriving DecidableEq, Repr

inductive SolanaError where
  | execution (failure : ExecutionFailure)
  | invalidAddress (kind value : String)
  | invalidKeypair (detail : String)
  | keypairUnavailable (detail : String)
  | secureStorage (error : String)
  | rpc (operation detail : String)
  | rpcFailure (operation source : String)
  | accountNotFound (address : String)
  | decode (payload detail : String)
  | invalidPool (reason : String)
  | instructionBuild (instruction detail : String)
  | directSwap (error : DirectSwapError)
  | notSent (reason : NotSubmittedReason)
  | paperScopeRefused (operation : String)
  deriving DecidableEq, Repr

/-- The error of a swap attempt; those of neither swap vocabulary are told apart by nothing. -/
inductive Error where
  | swaps (error : SwapExecutionError)
  | solana (error : SolanaError)
  | other (error : String)
  deriving DecidableEq, Repr

/-- What a failed swap leaves behind. -/
inductive FailedSwap where
  | reconcile (signature : String)
  | resendable
  | unresolved
  deriving DecidableEq, Repr

namespace DirectSwapError

/-- The signature of a transaction that reached the chain and was not reverted. -/
def settledSignature : DirectSwapError → Option String
  | confirmationTimeout signature _ => some signature
  | outputNotReceived signature _ _ => some signature
  | _ => none

/-- A fallback is safe only when the outcome proves nothing was sent or nothing moved. -/
def safeToFallback : DirectSwapError → Bool
  | unsupportedVenue .. | poolUndecodable .. | pairNotInPool .. | poolNotTradable ..
  | insufficientLiquidity .. | quoteMath .. | invalidRequest .. | insufficientBalance ..
  | accountUnavailable .. | nodeUnavailable .. | marketMoved .. | build ..
  | simulationRejected .. | transactionTooLarge .. | simulationUnavailable ..
  | submitFailed .. | blockhashExpired .. | transactionFailed .. => true
  | _ => false

end DirectSwapError

/-- The signature of a swap that reached the chain: submitted but unconfirmed, or completed
outside its caller's amount range. -/
def unconfirmedSwapSignature : Error → Option String
  | .swaps (.completedAmountOutOfRange signature _ _) => some signature
  | .solana (.execution (.confirmationTimeout reference _)) => some reference
  | .solana (.directSwap direct) => direct.settledSignature
  | _ => none

def swapExecutionFallbackSafe : SwapExecutionError → Bool
  | .notSubmitted .. => true
  | .completedAmountOutOfRange .. => false

def solanaFallbackSafe : SolanaError → Bool
  | .directSwap direct => direct.safeToFallback
  | .execution (.reverted ..) | .execution (.expired ..) => true
  | .notSent _ => true
  | _ => false

/-- Whether a failed swap proves nothing moved and nothing can still land. -/
def isFallbackSafe : Error → Bool
  | .swaps error => swapExecutionFallbackSafe error
  | .solana error => solanaFallbackSafe error
  | .other _ => false

/-- A recoverable signature always wins, and only a safe fallback licenses another send. -/
def failedSwap (error : Error) : FailedSwap :=
  match unconfirmedSwapSignature error with
  | some signature => .reconcile signature
  | none => if isFallbackSafe error then .resendable else .unresolved

/-- Why a swap stopped before it was sent, when its outcome says so. -/
def notSubmittedReason : Error → Option NotSubmittedReason
  | .swaps (.notSubmitted _ reason) => some reason
  | .solana (.directSwap (.transactionTooLarge bytes limit)) =>
      some (.transactionTooLarge bytes limit)
  | _ => none

/-- Where `pattern` first stands in a text, with the text behind it. -/
def findText (pattern : List Char) : ℕ → List Char → Option (ℕ × List Char)
  | at_, [] => if pattern.isEmpty then some (at_, []) else none
  | at_, c :: rest =>
    if pattern.isPrefixOf (c :: rest) then some (at_, (c :: rest).drop pattern.length)
    else findText pattern (at_ + 1) rest

/-- The value of a digit in a radix of at most sixteen. -/
def digitValue (radix : ℕ) (c : Char) : Option ℕ :=
  let value := if '0' ≤ c ∧ c ≤ '9' then some (c.toNat - '0'.toNat)
    else if 'a' ≤ c ∧ c ≤ 'f' then some (c.toNat - 'a'.toNat + 10)
    else if 'A' ≤ c ∧ c ≤ 'F' then some (c.toNat - 'A'.toNat + 10)
    else none
  value.filter (· < radix)

/-- The number its leading digits write; `none` without a digit or past 32 bits. -/
def leadingNumber (radix : ℕ) (text : List Char) : Option ℕ :=
  let digits := (text.takeWhile fun c => (digitValue radix c).isSome).filterMap (digitValue radix)
  if digits.isEmpty then none
  else
    let value := digits.foldl (fun value digit => value * radix + digit) 0
    if value < 2 ^ 32 then some value else none

/-- The first custom program error code in a program failure's error field. -/
def customProgramErrorIn (detail : String) : Option ℕ :=
  let hex := (findText "custom program error: 0x".toList 0 detail.toList).map fun found =>
    (found.1, found.2, 16)
  let json := (findText "\"Custom\":".toList 0 detail.toList).map fun found =>
    (found.1, found.2, 10)
  let found := match hex, json with
    | some hex, some json => some (if hex.1 < json.1 then hex else json)
    | found, none => found
    | none, found => found
  found.bind fun found => leadingNumber found.2.2 found.2.1

/-- The error field of a failure where a program ran the transaction and refused it. -/
def programDetail : Error → Option String
  | .swaps (.notSubmitted _ (.simulationFailed detail))
  | .swaps (.notSubmitted _ (.requestRejected detail))
  | .solana (.notSent (.simulationFailed detail))
  | .solana (.notSent (.requestRejected detail))
  | .solana (.directSwap (.simulationRejected detail _))
  | .solana (.directSwap (.transactionFailed _ detail))
  | .solana (.execution (.reverted _ detail)) => some detail
  | _ => none

/-- The custom program error a swap's transaction failed with. -/
def programError (error : Error) : Option ℕ := (programDetail error).bind customProgramErrorIn

example : customProgramErrorIn "Error processing Instruction 2: custom program error: 0x1787" =
    some 0x1787 := by decide +kernel

/-- What became of the transaction of an attempt. -/
inductive Fate where
  | notSent
  | reverted
  | expired
  | pending
  | landed
  deriving DecidableEq, Repr

/-- Nothing was sold, and nothing can still be. -/
def Fate.soldNothing : Fate → Bool
  | notSent | reverted | expired => true
  | pending | landed => false

/-- The fates an error leaves open: what its variant says of the transaction, and every fate where
it is no outcome of a send. -/
def Error.leavesOpen : Error → Fate → Bool
  | .swaps (.notSubmitted ..), fate => fate == .notSent
  | .swaps (.completedAmountOutOfRange ..), fate => fate == .landed
  | .solana (.execution (.reverted ..)), fate => fate == .reverted
  | .solana (.execution (.expired ..)), fate => fate == .expired
  | .solana (.execution _), fate => fate != .notSent
  | .solana (.notSent _), fate => fate == .notSent
  | .solana (.directSwap (.blockhashExpired ..)), fate => fate == .expired
  | .solana (.directSwap (.transactionFailed ..)), fate => fate == .reverted
  | .solana (.directSwap (.outputNotReceived ..)), fate => fate == .landed
  | .solana (.directSwap (.confirmationTimeout ..)), fate => fate != .notSent
  | .solana (.directSwap _), fate => fate == .notSent
  | _, _ => true

/-- An error proves its attempt sold nothing when every fate it leaves open sold nothing. -/
def Error.ProvesUnsold (error : Error) : Prop :=
  ∀ fate, error.leavesOpen fate = true → fate.soldNothing = true

theorem provesUnsold_of_only {error : Error} {only : Fate} (honly : only.soldNothing = true)
    (h : ∀ fate, error.leavesOpen fate = (fate == only)) : error.ProvesUnsold := by
  intro fate hfate
  rw [h, beq_iff_eq] at hfate
  rw [hfate]
  exact honly

/-- Only an error that proves nothing was sold licenses another send. -/
theorem provesUnsold_of_resendable {error : Error} (h : failedSwap error = .resendable) :
    error.ProvesUnsold := by
  have hsafe : unconfirmedSwapSignature error = none ∧ isFallbackSafe error = true := by
    unfold failedSwap at h
    cases hsignature : unconfirmedSwapSignature error with
    | some signature => simp [hsignature] at h
    | none => exact ⟨rfl, by simpa [hsignature] using h⟩
  obtain ⟨-, hsafe⟩ := hsafe
  cases error with
  | other error => cases hsafe
  | swaps error =>
    cases error with
    | notSubmitted router reason => exact provesUnsold_of_only rfl fun _ => rfl
    | completedAmountOutOfRange => cases hsafe
  | solana error =>
    cases error with
    | execution failure =>
      cases failure with
      | reverted => exact @provesUnsold_of_only _ .reverted rfl fun _ => rfl
      | expired => exact @provesUnsold_of_only _ .expired rfl fun _ => rfl
      | notFound | confirmationTimeout | indexingDelay => cases hsafe
    | notSent reason => exact @provesUnsold_of_only _ .notSent rfl fun _ => rfl
    | directSwap direct =>
      cases direct with
      | blockhashExpired => exact @provesUnsold_of_only _ .expired rfl fun _ => rfl
      | transactionFailed => exact @provesUnsold_of_only _ .reverted rfl fun _ => rfl
      | confirmationTimeout | outputNotReceived => cases hsafe
      | _ => exact @provesUnsold_of_only _ .notSent rfl fun _ => rfl
    | _ => cases hsafe

/-- The signature to reconcile is the one the error carries. -/
theorem signature_of_reconcile {error : Error} {signature : String}
    (h : failedSwap error = .reconcile signature) :
    unconfirmedSwapSignature error = some signature := by
  unfold failedSwap at h
  cases hsignature : unconfirmedSwapSignature error with
  | some found =>
    simp only [hsignature, FailedSwap.reconcile.injEq] at h
    rw [h]
  | none =>
    simp only [hsignature] at h
    split at h <;> cases h

end ScreenerBot.Swaps
