import ScreenerBot.Chain.Rounded
import ScreenerBot.Ledger.Types

/-! A position row, and the bookings of verified fills onto it. Times are instants on one
clock. Native amounts, prices and percentages are finite `f64` values, and every operation on
them is rounded as the source rounds it. -/
namespace ScreenerBot.Positions
open Library Ledger

/-- Who opened a position; `external` is derived from wallet history. -/
inductive PositionOrigin where
  | auto (strategyId : Option String)
  | manual
  | copy (taskId : ℤ) (sourceWallet : String)
  | external
  deriving DecidableEq, Repr

inductive PositionManagement where
  | autoTrader | userOnly | copyTask | hybrid
  deriving DecidableEq, Repr

/-- A position row, as far as bookings and the wallet-history sync read or write it. -/
structure Position where
  id : Option ℤ
  mint : String
  symbol : String
  name : String
  entryPrice : ℚ
  entryTime : ℤ
  exitPrice : Option ℚ
  exitTime : Option ℤ
  entrySizeNative : ℚ
  totalSizeNative : ℚ
  basisPeakPrice : ℚ
  basisPeakRestarted : Bool
  entryTransactionSignature : Option String
  exitTransactionSignature : Option String
  tokenAmount : Option ℕ
  effectiveEntryPrice : Option ℚ
  effectiveExitPrice : Option ℚ
  nativeReceived : Option ℚ
  transactionEntryVerified : Bool
  transactionExitVerified : Bool
  entryFeeRaw : Option ℕ
  exitFeeRaw : Option ℕ
  syntheticExit : Bool
  closedReason : Option String
  exitStrategyId : Option String
  pnl : Option ℚ
  pnlPercent : Option ℚ
  unrealizedPnl : Option ℚ
  unrealizedPnlPercent : Option ℚ
  remainingTokenAmount : Option ℕ
  totalExitedAmount : ℕ
  averageExitPrice : Option ℚ
  partialExitCount : ℕ
  dcaCount : ℕ
  averageEntryPrice : ℚ
  lastDcaTime : Option ℤ
  archived : Bool
  archivedAt : Option ℤ
  origin : PositionOrigin
  management : PositionManagement
  roundKey : Option String
  basisComplete : Bool
  historyComplete : Bool
  holdingState : Option String
  deriving DecidableEq, Repr

/-- Why a booking was refused. Nothing is written then. -/
inductive BookingError where
  | amountOverflow (mint operation : String)
  | holdingUnattributable (mint : String)
  | settlementRead
  | notFoundById (positionId : ℤ)
  | transitionFailed (transition mint : String)
  deriving DecidableEq, Repr

structure EntryFill where
  effectiveEntryPrice : ℚ
  tokenAmount : ℕ
  feeRaw : ℕ
  nativeSize : ℚ
  deriving DecidableEq, Repr

structure CloseFill where
  effectiveExitPrice : ℚ
  nativeReceived : ℚ
  feeRaw : ℕ
  exitTime : ℤ
  deriving DecidableEq, Repr

/-- A verified partial-exit swap. `unrealizedPnl` is what the live price makes of the rest. -/
structure PartialExitFill where
  exitAmount : ℕ
  nativeReceived : ℚ
  effectiveExitPrice : ℚ
  unrealizedPnl : Option (ℚ × ℚ)
  feeRaw : ℕ
  deriving DecidableEq, Repr

structure DcaFill where
  tokensBought : ℕ
  nativeSpent : ℚ
  feeRaw : ℕ
  dcaTime : ℤ
  deriving DecidableEq, Repr

/-- The close reason of a row whose holding left the wallet outside the bot. -/
def closedExternally : String := "closed_externally"

/-- The close reason of a row whose failed close is to be retried. -/
def exitRetryPending : String := "exit_retry_pending"

/-- What a close reason ends in while the close is being verified. -/
def pendingVerificationSuffix : String := "_pending_verification"

/-- The average after a buy of `boughtWhole` for `spent` that leaves `heldAfterWhole` held,
from the average in force before it. -/
def averageAfterAcquisition (averageBefore boughtWhole spent heldAfterWhole : ℚ) : Option ℚ :=
  if ¬(Rounded.dust < boughtWhole ∧ 0 < spent ∧ Rounded.dust < heldAfterWhole) then none
  else
    let keptBefore := max (Binary64.sub heldAfterWhole boughtWhole) 0
    if Rounded.dust < keptBefore ∧ ¬ 0 < averageBefore then none
    else
      let boughtHeld := Binary64.sub heldAfterWhole keptBefore
      let cost := Binary64.add (Binary64.mul averageBefore keptBefore)
        (Binary64.div (Binary64.mul spent boughtHeld) boughtWhole)
      let average := Binary64.div cost heldAfterWhole
      if 0 < average then some average else none

/-- Adds `fee` to the fees a slot already holds. -/
def addFee (slot : Option ℕ) (fee : ℕ) : Option ℕ := some (saturatingAddU64 (slot.getD 0) fee)

namespace Position

/-- Raw amount held now: the remaining amount once recorded, otherwise the entry fill. -/
def heldAmount (p : Position) : Option ℕ := p.remainingTokenAmount.or p.tokenAmount

/-- Raw amount ever acquired: what is held plus what has exited. -/
def acquiredAmount (p : Position) : Option ℕ :=
  checkedRaw (p.remainingTokenAmount.getD 0 + p.totalExitedAmount)

/-- True when the exit time is set and the exit verified. -/
def isClosed (p : Position) : Bool := p.exitTime.isSome && p.transactionExitVerified

/-- The network fees paid on every buy and every sale, in native units. -/
def totalFees (p : Position) : ℚ :=
  Binary64.add (Rounded.rawToNative (p.entryFeeRaw.getD 0))
    (Rounded.rawToNative (p.exitFeeRaw.getD 0))

/-- Everything received minus everything invested and the fees paid, with its percentage. -/
def realizedPnl (p : Position) : ℚ × ℚ :=
  let netPnlNative :=
    Binary64.sub (Binary64.sub (p.nativeReceived.getD 0) p.totalSizeNative) p.totalFees
  let leastInvested := Binary64.div 1 100000
  let safeInvested := if p.totalSizeNative < leastInvested then leastInvested else p.totalSizeNative
  (netPnlNative, Binary64.mul (Binary64.div netPnlNative safeInvested) 100)

/-- Takes the realized P&L from the booked totals. -/
def restatePnl (p : Position) : Position :=
  { p with pnl := some p.realizedPnl.1, pnlPercent := some p.realizedPnl.2 }

/-- Books `sold` as exited and lowers the remaining amount, floored at zero. -/
def bookExit (p : Position) (sold : ℕ) : Except BookingError Position :=
  match checkedRaw (p.totalExitedAmount + sold) with
  | none => .error (.amountOverflow p.mint "booking an exit")
  | some exited =>
    .ok { p with
      remainingTokenAmount := p.remainingTokenAmount.map (· - sold)
      totalExitedAmount := exited }

/-- Adds `bought` to the remaining amount. -/
def bookAcquisition (p : Position) (bought : ℕ) : Except BookingError Position :=
  let held := match p.remainingTokenAmount with
    | some remaining => checkedRaw (remaining + bought)
    | none => some bought
  match held with
  | none => .error (.amountOverflow p.mint "booking an acquisition")
  | some held => .ok { p with remainingTokenAmount := some held }

/-- Moves the whole remaining amount into the exited total. -/
def bookRemainingAsExited (p : Position) : Except BookingError Position :=
  match p.remainingTokenAmount with
  | none => .ok p
  | some remaining =>
    match checkedRaw (p.totalExitedAmount + remaining) with
    | none => .error (.amountOverflow p.mint "booking the remaining amount as exited")
    | some exited => .ok { p with totalExitedAmount := exited, remainingTokenAmount := some 0 }

/-- Records a verified entry fill; its fee joins the paid buy fees. -/
def applyEntryFill (p : Position) (fill : EntryFill) : Position :=
  { p with
    transactionEntryVerified := true
    effectiveEntryPrice := some fill.effectiveEntryPrice
    totalSizeNative := fill.nativeSize
    tokenAmount := some fill.tokenAmount
    entryFeeRaw := addFee p.entryFeeRaw fill.feeRaw
    entrySizeNative := fill.nativeSize
    remainingTokenAmount := some fill.tokenAmount
    averageEntryPrice := fill.effectiveEntryPrice }

/-- Drops `front` from the head of a list as often as it stands there, at most `n` times. -/
def dropRepeated (front : List Char) : ℕ → List Char → List Char
  | 0, chars => chars
  | n + 1, chars =>
    if front.isPrefixOf chars then dropRepeated front n (chars.drop front.length) else chars

/-- `str::trim_end_matches`. -/
def trimEndMatches (text suffix : String) : String :=
  String.ofList (dropRepeated suffix.toList.reverse text.length text.toList.reverse).reverse

/-- The reason of a verified close drops the suffix it carried while it was pending. -/
def settledReason (reason : Option String) : Option String :=
  reason.map (trimEndMatches · pendingVerificationSuffix)

/-- Books a verified full close. -/
def bookClose (p : Position) (fill : CloseFill) : Except BookingError Position := do
  let p ← p.bookRemainingAsExited
  let p := { p with
    transactionExitVerified := true
    effectiveExitPrice := some fill.effectiveExitPrice
    nativeReceived := some (Binary64.add (p.nativeReceived.getD 0) fill.nativeReceived)
    exitFeeRaw := addFee p.exitFeeRaw fill.feeRaw
    exitTime := some fill.exitTime
    closedReason := settledReason p.closedReason }
  return { p.restatePnl with unrealizedPnl := none, unrealizedPnlPercent := none }

/-- Books the leg of a verified partial exit onto a closed position. -/
def bookLatePartialExit (p : Position) (nativeReceived : ℚ) (feeRaw : ℕ) : Position :=
  { p with
    nativeReceived := some (Binary64.add (p.nativeReceived.getD 0) nativeReceived)
    exitFeeRaw := addFee p.exitFeeRaw feeRaw
    partialExitCount := p.partialExitCount + 1 }

/-- Books the leg of a verified full-close swap onto a closed position. A write-off is from
then on closed by this sale, at the sale's time. -/
def bookLateClose (p : Position) (fill : CloseFill) : Position :=
  { p with
    nativeReceived := some (Binary64.add (p.nativeReceived.getD 0) fill.nativeReceived)
    effectiveExitPrice := some fill.effectiveExitPrice
    exitFeeRaw := addFee p.exitFeeRaw fill.feeRaw
    exitTime := if p.syntheticExit then some fill.exitTime else p.exitTime
    syntheticExit := false }

/-- The exit price averaged over what has exited, `exitAmount` of it at `price`. -/
def blendedExitPrice (average : Option ℚ) (totalExited exitAmount : ℕ) (price : ℚ) : Option ℚ :=
  if totalExited = 0 then average
  else match average with
    | some prevAvg =>
      let weight (part : ℕ) := Binary64.div (Binary64.ofNat part) (Binary64.ofNat totalExited)
      some (Binary64.add (Binary64.mul prevAvg (weight (totalExited - exitAmount)))
        (Binary64.mul price (weight exitAmount)))
    | none => some price

/-- Books a verified partial exit. The position stays open. -/
def bookPartialExit (p : Position) (fill : PartialExitFill) : Except BookingError Position := do
  let p ← p.bookExit fill.exitAmount
  return { p with
    averageExitPrice := blendedExitPrice p.averageExitPrice p.totalExitedAmount fill.exitAmount
      fill.effectiveExitPrice
    partialExitCount := p.partialExitCount + 1
    nativeReceived := some (Binary64.add (p.nativeReceived.getD 0) fill.nativeReceived)
    exitFeeRaw := addFee p.exitFeeRaw fill.feeRaw
    unrealizedPnl := (fill.unrealizedPnl.map Prod.fst).or p.unrealizedPnl
    unrealizedPnlPercent := (fill.unrealizedPnl.map Prod.snd).or p.unrealizedPnlPercent }

/-- Books a verified DCA add. The average entry price is the caller's to blend. -/
def bookDca (p : Position) (fill : DcaFill) : Except BookingError Position := do
  let p ← p.bookAcquisition fill.tokensBought
  return { p with
    totalSizeNative := Binary64.add p.totalSizeNative fill.nativeSpent
    entryFeeRaw := addFee p.entryFeeRaw fill.feeRaw
    dcaCount := p.dcaCount + 1
    lastDcaTime := some fill.dcaTime }

/-- Moves the average entry price to `average` after a buy filled at `fillPrice`. A new
average restarts the basis peak at the fill price. -/
def moveAverageEntryPrice (p : Position) (average fillPrice : ℚ) : Position :=
  if average = p.averageEntryPrice then p
  else { p with
    averageEntryPrice := average
    basisPeakPrice := if 0 < fillPrice then fillPrice else average
    basisPeakRestarted := true }

/-- Blends a booked buy of `bought` for `spent` into the average entry price; left unchanged
when nothing is held, nothing was bought, or the amounts are unusable. -/
def blendAverageEntryPrice (p : Position) (bought : ℕ) (spent : ℚ) (decimals : ℕ) : Position :=
  let heldAfter := p.remainingTokenAmount.getD 0
  if ¬(0 < heldAfter ∧ 0 < bought ∧ 0 < spent) then p
  else
    let boughtWhole := Rounded.toWholeUnits bought decimals
    match averageAfterAcquisition p.averageEntryPrice boughtWhole spent
        (Rounded.toWholeUnits heldAfter decimals) with
    | some average => p.moveAverageEntryPrice average (Binary64.div spent boughtWhole)
    | none => p

end Position

end ScreenerBot.Positions
