import ScreenerBot.Positions.Position

/-! Rules over a round's raw token amounts: what is dust, what part of a holding a round owns,
and how a closed position follows its round when a fill lands after its close. -/
namespace ScreenerBot.Positions
open Library

def dustDivisor : ℕ := 1000

def dustFloorRaw : ℕ := 10

/-- True when `held` is leftover of `acquired`, not a holding. -/
def isDust (held acquired : ℕ) : Bool := decide (held ≤ max (acquired / dustDivisor) dustFloorRaw)

/-- The part of the wallet's holding a round can own. -/
def attributableHeld (walletHeld heldByOtherOpenRows acquired : ℕ) : ℕ :=
  min (walletHeld - heldByOtherOpenRows) acquired

inductive FollowOutcome where
  | unchanged | reopened | staysClosed | handedOver
  deriving DecidableEq, Repr

/-- The holding and cost a closed position hands to the open position of its mint. -/
structure Handover where
  tokens : ℕ
  costNative : ℚ
  deriving DecidableEq, Repr

/-- A part of one fill: the tokens it acquired and what they cost. -/
structure Leg where
  tokens : ℕ
  costNative : ℚ
  deriving DecidableEq, Repr

/-- How a buy that lands on a closed position divides between that position and the open
position of its mint. -/
structure LegSplit where
  kept : Leg
  handedLeg : Leg
  /-- Earlier tokens the wallet still holds beyond the buy, at the average cost before it. -/
  handedEarlier : Leg
  keptFeeRaw : ℕ
  handedFeeRaw : ℕ
  deriving DecidableEq, Repr

/-- The whole fill stays on the position it was bought for. -/
def LegSplit.keptWhole (fill : DcaFill) : LegSplit :=
  ⟨⟨fill.tokensBought, fill.nativeSpent⟩, ⟨0, 0⟩, ⟨0, 0⟩, fill.feeRaw, 0⟩

/-- Everything handed to the open position. -/
def LegSplit.handed (s : LegSplit) : Option Handover :=
  (checkedRaw (s.handedLeg.tokens + s.handedEarlier.tokens)).map fun tokens =>
    ⟨tokens, Binary64.add s.handedLeg.costNative s.handedEarlier.costNative⟩

/-- `feeRaw` in proportion to `part` of `whole`, rounded down. -/
def proratedFee (feeRaw part whole : ℕ) : ℕ :=
  if whole = 0 then feeRaw
  else
    let share := min (feeRaw * part) u128Max / whole
    min (if share ≤ u64Max then share else feeRaw) feeRaw

/-- `part` as a fraction of `whole`, zero for an empty whole. -/
def fraction (part whole : ℕ) : ℚ :=
  if whole = 0 then 0 else Binary64.div (Binary64.ofNat part) (Binary64.ofNat whole)

namespace Position

/-- Clears the closing state of a position that holds `held` of the `acquired` amount. -/
def clearClose (p : Position) (held acquired : ℕ) : Position :=
  { p with
    remainingTokenAmount := some held
    totalExitedAmount := acquired - held
    exitTime := none
    exitPrice := none
    effectiveExitPrice := none
    averageExitPrice := none
    pnl := none
    pnlPercent := none
    closedReason := none
    exitStrategyId := none
    transactionExitVerified := false
    syntheticExit := false
    exitTransactionSignature := none }

/-- Nothing of the position is held any more, and `exited` of it has left. -/
def holdNothing (p : Position) (exited : ℕ) : Position :=
  { p with remainingTokenAmount := some 0, totalExitedAmount := exited }

/-- Makes a closed position follow its round once a late fill's own leg is booked on it. -/
def followRound (p : Position) (held : ℕ) (closingSaleRecorded : Bool) :
    Except BookingError (Position × FollowOutcome) :=
  if !p.isClosed then .ok (p, .unchanged)
  else match p.acquiredAmount with
    | none => .error (.amountOverflow p.mint "following the round")
    | some acquired =>
      if isDust held acquired then .ok ((p.holdNothing acquired).restatePnl, .staysClosed)
      else
        let p := if closingSaleRecorded then
          { p with partialExitCount := p.partialExitCount + 1 } else p
        .ok (p.clearClose (min held acquired) acquired, .reopened)

/-- Reopens a position the wallet history closed because its holding was missing from a wallet
read. -/
def reopenMissedHolding (p : Position) : Except BookingError Position :=
  match p.acquiredAmount with
  | none => .error (.amountOverflow p.mint "reopening a missed holding")
  | some acquired => .ok (p.clearClose acquired acquired)

/-- Like `followRound`, for a closed position whose mint has another open position: a holding
above dust is handed to that position. -/
def handOverRound (p : Position) (held : ℕ) (closingSaleRecorded : Bool) :
    Except BookingError (Position × FollowOutcome × Option Handover) :=
  if !p.isClosed then .ok (p, .unchanged, none)
  else match p.acquiredAmount with
    | none => .error (.amountOverflow p.mint "handing the round over")
    | some acquired =>
      if isDust held acquired then do
        let (p, follow) ← p.followRound held closingSaleRecorded
        return (p, follow, none)
      else
        let held := min held acquired
        let share := Binary64.div (Binary64.ofNat held) (Binary64.ofNat acquired)
        let costNative := Binary64.mul p.totalSizeNative share
        let p := { p with totalSizeNative := Binary64.sub p.totalSizeNative costNative }
        .ok ((p.holdNothing (acquired - held)).restatePnl, .handedOver, some ⟨held, costNative⟩)

/-- How `fill` divides when `held` of the `before` tokens of this position and the buy's own
are still in the wallet. -/
def splitLeg (p : Position) (fill : DcaFill) (held before : ℕ) : LegSplit :=
  let handedLegTokens := min held fill.tokensBought
  let handedLegCost :=
    Binary64.mul fill.nativeSpent (fraction handedLegTokens fill.tokensBought)
  let earlierTokens := held - handedLegTokens
  let earlierCost := Binary64.mul p.totalSizeNative (fraction earlierTokens before)
  let handedFeeRaw := proratedFee fill.feeRaw handedLegTokens fill.tokensBought
  { kept :=
      ⟨fill.tokensBought - handedLegTokens, Binary64.sub fill.nativeSpent handedLegCost⟩
    handedLeg := ⟨handedLegTokens, handedLegCost⟩
    handedEarlier := ⟨earlierTokens, earlierCost⟩
    keptFeeRaw := fill.feeRaw - handedFeeRaw
    handedFeeRaw := handedFeeRaw }

/-- Books the kept part of a split buy on a closed position that exited `exited` in all. -/
def keepLeg (p : Position) (split : LegSplit) (dcaTime : ℤ) (exited : ℕ) : Position :=
  let p := { p with
    totalSizeNative := Binary64.add p.totalSizeNative
      (Binary64.sub split.kept.costNative split.handedEarlier.costNative)
    entryFeeRaw := addFee p.entryFeeRaw split.keptFeeRaw }
  let p := if 0 < split.kept.tokens then
    { p with dcaCount := p.dcaCount + 1, lastDcaTime := some dcaTime } else p
  (p.holdNothing exited).restatePnl

/-- Books a buy on a position when the buy may land after the position closed and its mint has
another open position. -/
def handOverLeg (p : Position) (fill : DcaFill) (held : ℕ) (closingSaleRecorded : Bool) :
    Except BookingError (Position × FollowOutcome × LegSplit) :=
  if !p.isClosed then do
    let p ← p.bookDca fill
    return (p, .unchanged, .keptWhole fill)
  else
    let overflow := BookingError.amountOverflow p.mint "handing a late buy over"
    match p.acquiredAmount with
    | none => .error overflow
    | some before =>
      match checkedRaw (before + fill.tokensBought) with
      | none => .error overflow
      | some acquired =>
        if isDust held acquired then do
          let p ← p.bookDca fill
          let (p, follow) ← p.followRound held closingSaleRecorded
          return (p, follow, .keptWhole fill)
        else
          let split := p.splitLeg fill (min held acquired) before
          match checkedRaw (before - split.handedEarlier.tokens + split.kept.tokens) with
          | none => .error overflow
          | some exited => .ok (p.keepLeg split fill.dcaTime exited, .handedOver, split)

end Position

end ScreenerBot.Positions
