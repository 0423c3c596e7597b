import Mathlib.Tactic

/-! What a watched wallet did, and the copy tasks, decisions and outcomes it leads to. -/
namespace ScreenerBot.Copy

inductive TradingMode where
  | paper
  | live
  deriving DecidableEq, Repr

inductive ExitMode where
  | buyOnly
  | mirror
  | hybrid
  deriving DecidableEq, Repr

inductive SwapSide where
  | buy
  | sell
  deriving DecidableEq, Repr

/-- Why a subject is watched. -/
inductive WatchSource where
  | ownWallet
  | copy (taskId : ℤ)
  | alert (ruleId : ℤ)
  deriving DecidableEq, Repr

/-- Why a trade cannot be reduced to one copyable swap. -/
inductive UnresolvedSwapReason where
  | mixedQuote
  | multipleTokens
  | unreadable
  deriving DecidableEq, Repr

inductive ActivityKind where
  /-- A swap of one primary mint, quoted in the native coin. -/
  | swap (mint : String) (side : SwapSide) (nativeAmount tokenAmount : ℚ) (priceNative : Option ℚ)
  /-- A swap of one primary mint paid or received in one stable coin. -/
  | stableSwap (mint : String) (side : SwapSide) (stableAmount tokenAmount : ℚ)
  | unresolvedSwap (mint : Option String) (reason : UnresolvedSwapReason)
  | transfer
  | other
  deriving DecidableEq, Repr

namespace ActivityKind

/-- The native-quoted swap equal to a stable one, valuing the stable coin at one dollar. -/
def stableSwapInNative (kind : ActivityKind) (nativeUsd : ℚ) : Option ActivityKind :=
  match kind with
  | stableSwap mint side stableAmount tokenAmount =>
    let nativeAmount := stableAmount / nativeUsd
    let priceNative := nativeAmount / tokenAmount
    if 0 < nativeUsd ∧ 0 < nativeAmount ∧ 0 < priceNative then
      some (swap mint side nativeAmount tokenAmount (some priceNative))
    else none
  | _ => none

end ActivityKind

/-- One piece of on-chain activity of a watched subject. -/
structure WalletActivity where
  subject : String
  signature : String
  /-- Seconds. -/
  blockTime : Option ℤ
  /-- Milliseconds, when the notification reached the bot. -/
  detectedAt : ℤ
  kind : ActivityKind
  sources : List WatchSource
  /-- Replayed by a gap-fill rather than seen live. -/
  backfill : Bool
  deriving DecidableEq, Repr

/-- How long after its block the activity was detected. -/
def WalletActivity.arrivalDistanceMs (activity : WalletActivity) : Option ℕ := do
  let blockTime ← activity.blockTime
  let distance := activity.detectedAt - blockTime * 1000
  if 0 ≤ distance then some distance.toNat else none

structure CopyTask where
  id : ℤ
  targetAddress : String
  enabled : Bool
  mode : TradingMode
  exitMode : ExitMode
  slippagePct : ℚ
  /-- Override of the filter requirement; `none` inherits. -/
  requireFilterPass : Option Bool
  /-- Override of the consent to stable-quoted buys; `none` inherits. -/
  copyStableQuoted : Option Bool
  deriving DecidableEq, Repr

namespace CopyTask

def requiresFilterPass (task : CopyTask) (global : Bool) : Bool :=
  task.requireFilterPass.getD global

def copiesStableQuoted (task : CopyTask) (global : Bool) : Bool := task.copyStableQuoted.getD global

end CopyTask

/-- Every task that watches the activity's subject, paused or not. -/
def matchingTasks (activity : WalletActivity) (tasks : List CopyTask) : List CopyTask :=
  tasks.filter fun task =>
    task.targetAddress == activity.subject && activity.sources.contains (.copy task.id)

/-- Why a task did not copy an activity. -/
inductive CopySkip where
  | notBuySwap
  | notSellSwap
  | exitModeDisabled
  | forceStopped
  | latencyKillSwitch (averageMs thresholdMs : ℕ)
  | claimReconciledAbandoned
  | copyPositionNotFound
  | positionUserOnly
  | positionManagementMismatch
  | modeTransitionRequired
  | entryBlocked (block : String)
  | paperQueueFull
  | paperExecutionUnavailable
  | staleObservation (arrivalMs thresholdMs : ℕ)
  | unknownObservationTime
  | stableQuoteDisabled
  | stableQuotePriceUnavailable
  | swapMixedQuote
  | swapMultipleTokens
  | swapUnreadable
  /-- A reason of the risk precheck or of the sizing. -/
  | entryRefused (reason : String)
  deriving DecidableEq, Repr

def CopySkip.ofUnresolved : UnresolvedSwapReason → CopySkip
  | .mixedQuote => swapMixedQuote
  | .multipleTokens => swapMultipleTokens
  | .unreadable => swapUnreadable

/-- A live copy buy as it was decided. -/
structure LiveDecision where
  taskId : ℤ
  targetSignature : String
  mint : String
  sizedNative : ℚ
  transactionSignature : Option String
  error : Option String
  deriving DecidableEq, Repr

/-- A copied sale as it was decided, in either book. -/
structure CopySellDecision where
  taskId : ℤ
  targetSignature : String
  mint : String
  exitPercentage : Option ℚ
  transactionSignature : Option String
  error : Option String
  deriving DecidableEq, Repr

inductive CopyOutcome where
  | paperFilled (taskId : ℤ) (signature mint : String)
  | liveSubmitted (decision : LiveDecision)
  | liveConfirmed (decision : LiveDecision)
  | liveFailed (decision : LiveDecision)
  | paperSellObserved (decision : CopySellDecision)
  | liveSellSubmitted (decision : CopySellDecision)
  | liveSellFailed (decision : CopySellDecision)
  | skipped (taskId : ℤ) (signature : String) (mint : Option String) (reason : CopySkip)
      (paper : Bool)
  deriving DecidableEq, Repr

namespace CopyOutcome

/-- The task and the target transaction the outcome is of. -/
def key : CopyOutcome → ℤ × String
  | paperFilled taskId signature _ => (taskId, signature)
  | liveSubmitted d | liveConfirmed d | liveFailed d => (d.taskId, d.targetSignature)
  | paperSellObserved d | liveSellSubmitted d | liveSellFailed d => (d.taskId, d.targetSignature)
  | skipped taskId signature _ _ _ => (taskId, signature)

/-- Marks a skip as a paper task's decision. -/
def asPaper : CopyOutcome → CopyOutcome
  | skipped taskId signature mint reason _ => skipped taskId signature mint reason true
  | outcome => outcome

end CopyOutcome

/-- A skip of an observed activity whose traded token may be unknown. -/
def skippedActivity (taskId : ℤ) (activity : WalletActivity) (mint : Option String)
    (reason : CopySkip) : CopyOutcome :=
  .skipped taskId activity.signature mint reason false

def skipped (taskId : ℤ) (activity : WalletActivity) (mint : String) (reason : CopySkip) :
    CopyOutcome :=
  skippedActivity taskId activity (some mint) reason

def skippedPaper (taskId : ℤ) (activity : WalletActivity) (mint : String) (reason : CopySkip) :
    CopyOutcome :=
  (skipped taskId activity mint reason).asPaper

end ScreenerBot.Copy
