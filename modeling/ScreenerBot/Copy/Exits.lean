import ScreenerBot.Copy.Types
import ScreenerBot.Positions.Position

/-! The plan of a copied sale: what share of a task's position follows the target's sale. -/
namespace ScreenerBot.Copy
open Positions

/-- What a copied sale reads of the open position of its mint. -/
structure CopyPosition where
  id : Option ℤ
  origin : PositionOrigin
  book : TradingMode
  management : PositionManagement
  deriving DecidableEq, Repr

structure PreparedCopySell where
  taskId : ℤ
  targetSignature : String
  mint : String
  book : TradingMode
  positionId : Option ℤ
  exitPercentage : Option ℚ
  slippagePct : ℚ
  deriving DecidableEq, Repr

/-- The share of its holding a target sold, in percent. -/
def proportionalExitPercentage (targetTokenAmount targetHoldingBeforeSell : ℚ) : Option ℚ :=
  if targetTokenAmount ≤ 0 ∨ targetHoldingBeforeSell ≤ 0 then none
  else some (max (1 / 100) (min 100 (targetTokenAmount / targetHoldingBeforeSell * 100)))

/-- Whether this task opened the position from its own target wallet. -/
def ownsCopyPosition (position : CopyPosition) (task : CopyTask) : Bool :=
  match position.origin with
  | .copy taskId sourceWallet => taskId == task.id && sourceWallet == task.targetAddress
  | _ => false

def allowsCopySell : PositionManagement → Bool
  | .copyTask | .hybrid => true
  | .autoTrader | .userOnly => false

def prepareCopySell (activity : WalletActivity) (task : CopyTask) (position : Option CopyPosition)
    (forceStopped : Bool) (targetHoldingBeforeSell : ℚ) : Except CopySkip PreparedCopySell :=
  if task.exitMode = .buyOnly then .error .exitModeDisabled
  else match activity.kind with
  | .swap mint .sell _ targetTokenAmount _ =>
    if forceStopped then .error .forceStopped
    else match position.filter (ownsCopyPosition · task) with
    | none => .error .copyPositionNotFound
    | some position =>
      if position.book ≠ task.mode then .error .modeTransitionRequired
      else if position.management = .userOnly then .error .positionUserOnly
      else if !allowsCopySell position.management then .error .positionManagementMismatch
      else .ok {
        taskId := task.id
        targetSignature := activity.signature
        mint
        book := position.book
        positionId := position.id
        exitPercentage := proportionalExitPercentage targetTokenAmount targetHoldingBeforeSell
        slippagePct := task.slippagePct }
  | _ => .error .notSellSwap

/-- A planned sale is of its task's own target transaction. -/
theorem prepareCopySell_key {activity : WalletActivity} {task : CopyTask}
    {position : Option CopyPosition} {forceStopped : Bool} {holding : ℚ} {plan : PreparedCopySell}
    (h : prepareCopySell activity task position forceStopped holding = .ok plan) :
    plan.taskId = task.id ∧ plan.targetSignature = activity.signature := by
  unfold prepareCopySell at h
  repeat' split at h
  all_goals cases h
  exact ⟨rfl, rfl⟩

/-- The decision record of a copied sale before it is executed. -/
def sellDecision (plan : PreparedCopySell) : CopySellDecision where
  taskId := plan.taskId
  targetSignature := plan.targetSignature
  mint := plan.mint
  exitPercentage := plan.exitPercentage
  transactionSignature := none
  error := none

/-- How the exit pipeline answered a copied sale. -/
inductive CopySellSubmitResult where
  | submitted (transactionSignature : String)
  | paperFilled
  | paperRefused (refusal : CopySkip)
  | failed (error : String)
  deriving DecidableEq, Repr

/-- The outcome of a planned sale the exit pipeline answered. -/
def copySellOutcome (plan : PreparedCopySell) (result : CopySellSubmitResult) : CopyOutcome :=
  let decision := sellDecision plan
  let skip := fun reason => CopyOutcome.skipped plan.taskId plan.targetSignature (some plan.mint)
    reason true
  match plan.book, result with
  | .live, .submitted transactionSignature =>
    .liveSellSubmitted { decision with transactionSignature := some transactionSignature }
  | .paper, .paperFilled => .paperSellObserved decision
  | .paper, .paperRefused refusal => skip refusal
  | .live, .failed error => .liveSellFailed { decision with error := some error }
  | .paper, _ => skip .paperExecutionUnavailable
  | .live, _ =>
    .liveSellFailed { decision with error := some "a live copy sell returned a paper result" }

end ScreenerBot.Copy
