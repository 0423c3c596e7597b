import ScreenerBot.Copy.Service
import ScreenerBot.Library.Binary64

/-! The gates and the size of a copy buy, from what the task has spent. -/
namespace ScreenerBot.Copy
open Library

inductive SizingMode where
  | fixed (sol : ℚ)
  | ratioOfTarget (pct : ℚ)
  | percentOfTargetPortfolio (pct : ℚ)
  deriving DecidableEq, Repr

/-- The limits of a task, as they pass its validation. -/
structure CopyLimits where
  sizing : SizingMode
  maxNativePerTrade : ℚ
  maxNativePerToken : ℚ
  totalBudgetNative : ℚ
  minTargetTradeNative : Option ℚ
  maxTargetTradeNative : Option ℚ
  buyOncePerToken : Bool
  trade_pos : 0 < maxNativePerTrade
  trade_le : maxNativePerTrade ≤ maxNativePerToken
  token_le : maxNativePerToken ≤ totalBudgetNative

/-- What a task spent live, in total and on a token. -/
structure SpendState where
  totalSpentNative : ℚ
  tokenSpentNative : ℚ
  tokenBuyCount : ℕ

structure RiskContext where
  isSelfWallet : Bool
  mintBlacklisted : Bool
  filterPassed : Bool
  deriving Repr

structure PipelinePolicy where
  requireFilterPass : Bool
  engineTradeSizeNative : ℚ
  deriving Repr

/-- Why a buy is refused by the gates or by the sizing. -/
inductive EntryRefusal where
  | taskDisabled
  | selfCopy
  | invalidSizing
  | targetBelowMinimum
  | targetAboveMaximum
  | alreadyBought
  | blacklisted
  | filterRequired
  | invalidSlippage
  | unsupportedSizingMode
  | budgetExhausted
  | tokenCapReached
  | belowMinimumSize
  deriving DecidableEq, Repr

def EntryRefusal.toSkip : EntryRefusal → CopySkip
  | taskDisabled => .entryRefused "task_disabled"
  | selfCopy => .entryRefused "self_copy"
  | invalidSizing => .entryRefused "invalid_sizing"
  | targetBelowMinimum => .entryRefused "target_below_minimum"
  | targetAboveMaximum => .entryRefused "target_above_maximum"
  | alreadyBought => .entryRefused "already_bought"
  | blacklisted => .entryRefused "blacklisted"
  | filterRequired => .entryRefused "filter_required"
  | invalidSlippage => .entryRefused "invalid_slippage"
  | unsupportedSizingMode => .entryRefused "unsupported_sizing_mode"
  | budgetExhausted => .entryRefused "budget_exhausted"
  | tokenCapReached => .entryRefused "token_cap_reached"
  | belowMinimumSize => .entryRefused "below_minimum_size"

def minTradeSizeNative : ℚ := roundBinary64 (1 / 1000)

def maxTradeSizeMultiplier : ℚ := 100

def minCopySlippagePct : ℚ := roundBinary64 (1 / 10)

def maxManualSlippagePct : ℚ := 50

def precheck (task : CopyTask) (limits : CopyLimits) (targetSizeNative : ℚ) (spend : SpendState)
    (context : RiskContext) (policy : PipelinePolicy) : Except EntryRefusal Unit :=
  if !task.enabled then .error .taskDisabled
  else if context.isSelfWallet then .error .selfCopy
  else if targetSizeNative ≤ 0 then .error .invalidSizing
  else if limits.minTargetTradeNative.any fun minimum => targetSizeNative < minimum then
    .error .targetBelowMinimum
  else if limits.maxTargetTradeNative.any fun maximum => maximum < targetSizeNative then
    .error .targetAboveMaximum
  else if limits.buyOncePerToken && decide (0 < spend.tokenBuyCount) then .error .alreadyBought
  else if context.mintBlacklisted then .error .blacklisted
  else if policy.requireFilterPass && !context.filterPassed then .error .filterRequired
  else if task.slippagePct < minCopySlippagePct ∨ maxManualSlippagePct < task.slippagePct then
    .error .invalidSlippage
  else .ok ()

/-- What the sizing mode asks for. -/
def requestedSize (sizing : SizingMode) (targetSizeNative : ℚ) : Except EntryRefusal ℚ :=
  match sizing with
  | .fixed sol => .ok sol
  | .ratioOfTarget pct =>
    if 0 < pct then .ok (Binary64.div (Binary64.mul targetSizeNative pct) 100) else .error
      .invalidSizing
  | .percentOfTargetPortfolio _ => .error .unsupportedSizingMode

def budgetRemaining (limits : CopyLimits) (spend : SpendState) : ℚ :=
  max (Binary64.sub limits.totalBudgetNative spend.totalSpentNative) 0

def tokenRemaining (limits : CopyLimits) (spend : SpendState) : ℚ :=
  max (Binary64.sub limits.maxNativePerToken spend.tokenSpentNative) 0

def engineCeiling (engineTradeSizeNative : ℚ) : ℚ :=
  Binary64.mul engineTradeSizeNative maxTradeSizeMultiplier

def sizeFor (limits : CopyLimits) (targetSizeNative : ℚ) (spend : SpendState)
    (engineTradeSizeNative : ℚ) : Except EntryRefusal ℚ := do
  let requested ← requestedSize limits.sizing targetSizeNative
  if requested ≤ 0 ∨ engineTradeSizeNative ≤ 0 then throw .invalidSizing
  if budgetRemaining limits spend < minTradeSizeNative then throw .budgetExhausted
  if tokenRemaining limits spend < minTradeSizeNative then throw .tokenCapReached
  let sized := min (min (min (min requested limits.maxNativePerTrade) (tokenRemaining limits spend))
    (budgetRemaining limits spend)) (engineCeiling engineTradeSizeNative)
  if sized < minTradeSizeNative then throw .belowMinimumSize
  return sized

/-- What bounds a size: the smallest of these is the size. -/
def sizeBounds (limits : CopyLimits) (requested : ℚ) (spend : SpendState)
    (engineTradeSizeNative : ℚ) : List ℚ :=
  [requested, limits.maxNativePerTrade, tokenRemaining limits spend, budgetRemaining limits spend,
    engineCeiling engineTradeSizeNative]

theorem minTradeSizeNative_pos : 0 < minTradeSizeNative := by decide +kernel

/-- A size is worth trading, and is the smallest of its bounds. -/
theorem sizeFor_spec {limits : CopyLimits} {targetSizeNative engineTradeSizeNative size : ℚ}
    {spend : SpendState}
    (h : sizeFor limits targetSizeNative spend engineTradeSizeNative = .ok size) :
    0 < size ∧ ∃ requested, requestedSize limits.sizing targetSizeNative = .ok requested ∧
      ∀ x, size ≤ x ↔ ∃ bound ∈ sizeBounds limits requested spend engineTradeSizeNative,
        bound ≤ x := by
  unfold sizeFor at h
  cases hrequested : requestedSize limits.sizing targetSizeNative with
  | error refusal =>
    rw [hrequested] at h
    cases h
  | ok requested =>
    rw [hrequested] at h
    simp only [bind, Except.bind, pure, Except.pure, throw, throwThe, MonadExceptOf.throw] at h
    split_ifs at h with _ _ _ hsize
    cases h
    refine ⟨minTradeSizeNative_pos.trans_le (not_lt.mp hsize), requested, rfl, fun x => ?_⟩
    simp only [sizeBounds, List.mem_cons, List.not_mem_nil, or_false, exists_eq_or_imp,
      exists_eq_left,
      min_le_iff, or_assoc]

theorem precheck_once {task : CopyTask} {limits : CopyLimits} {targetSizeNative : ℚ}
    {spend : SpendState}
    {context : RiskContext} {policy : PipelinePolicy}
    (h : precheck task limits targetSizeNative spend context policy = .ok ())
    (honce : limits.buyOncePerToken) : spend.tokenBuyCount = 0 := by
  unfold precheck at h
  by_contra hbought
  have hpos := Nat.pos_of_ne_zero hbought
  simp only [honce, hpos, decide_true, Bool.and_self, if_true] at h
  split_ifs at h

end ScreenerBot.Copy
