import ScreenerBot.Sync.Attribution

/-! The row a round implies: a wallet-derived row is rebuilt from it, a row the bot executed is
reconciled with it. -/
namespace ScreenerBot.Positions
open Ledger

structure RoundMetadata where
  symbol : Option String
  name : Option String
  frozen : Bool
  deriving DecidableEq, Repr

def RoundMetadata.empty : RoundMetadata := ⟨none, none, false⟩

def holdingStateFrozen : String := "frozen"

def walletHistory : String := "wallet_history"

def fromTimestamp (seconds : ℤ) : Option ℤ :=
  if -8334601228800 ≤ seconds ∧ seconds ≤ 8210266876799 then some (seconds * 10 ^ 9) else none

def shortMint (mint : String) : String :=
  if mint.utf8ByteSize ≤ 8 then mint
  else String.ofList (mint.toList.take 4 ++ '…' :: mint.toList.drop (mint.toList.length - 4))

def frozenState (meta' : RoundMetadata) (round : LedgerRound) : Option String :=
  if meta'.frozen && round.isOpen then some holdingStateFrozen else none

/-- The exit time of a row built from a round: a closed round without an observed close is
dated by the last moment it was seen. -/
def builtExitTime (round : LedgerRound) (existing : Option Position) (entryTime : ℤ) : Option ℤ :=
  (round.closedAt.bind fromTimestamp).or <|
    if round.isOpen then none
    else ((round.lastSeenAt.bind fromTimestamp).or (existing.bind (·.exitTime))).or (some entryTime)

/-- Build the position row a round implies, carrying over everything the ledger does not own
from the row that already exists. -/
def buildPosition (round : LedgerRound) (meta' : RoundMetadata) (existing : Option Position)
    (now : ℤ) : Position :=
  let entryTime := ((round.openedAt.bind fromTimestamp).or (existing.map (·.entryTime))).getD now
  let realizedPnl := if round.basisComplete && round.historyComplete then round.realizedPnlNative
    else none
  let entryPrice := round.averageEntryPriceNative.getD 0
  { id := existing.bind (·.id)
    mint := round.mint
    symbol := (meta'.symbol.or (existing.map (·.symbol))).getD (shortMint round.mint)
    name := (meta'.name.or (existing.map (·.name))).getD (shortMint round.mint)
    entryPrice := entryPrice
    entryTime := entryTime
    exitPrice := round.averageExitPriceNative
    exitTime := builtExitTime round existing entryTime
    entrySizeNative := round.investedNative
    totalSizeNative := round.investedNative
    basisPeakPrice := (existing.filter (·.averageEntryPrice == entryPrice)).elim entryPrice
      (·.basisPeakPrice)
    basisPeakRestarted := false
    entryTransactionSignature := round.entrySignature
    exitTransactionSignature := round.exitSignature
    tokenAmount := some round.totalAcquiredRaw
    effectiveEntryPrice := round.averageEntryPriceNative
    effectiveExitPrice := round.averageExitPriceNative
    nativeReceived := if 0 < round.exitCount then some round.realizedProceedsNative else none
    transactionEntryVerified := true
    transactionExitVerified := !round.isOpen
    entryFeeRaw := none
    exitFeeRaw := none
    syntheticExit := false
    closedReason := if round.isOpen then none else some walletHistory
    exitStrategyId := none
    pnl := realizedPnl
    pnlPercent := realizedPnl.bind fun pnl =>
      if dust < round.realizedCostNative then some (pnl / round.realizedCostNative * 100) else none
    unrealizedPnl := existing.bind (·.unrealizedPnl)
    unrealizedPnlPercent := existing.bind (·.unrealizedPnlPercent)
    remainingTokenAmount := some round.balanceRaw
    totalExitedAmount := round.totalDisposedRaw
    averageExitPrice := round.averageExitPriceNative
    partialExitCount := round.exitCount - if round.isOpen then 0 else 1
    dcaCount := round.entryCount - 1
    averageEntryPrice := entryPrice
    lastDcaTime := existing.bind (·.lastDcaTime)
    archived := existing.elim false (·.archived)
    archivedAt := existing.bind (·.archivedAt)
    origin := .external
    management := .userOnly
    roundKey := some round.roundKey
    basisComplete := round.basisComplete
    historyComplete := round.historyComplete
    holdingState := frozenState meta' round }

/-- True when the ledger closed `existing` because a wallet read missed its holding, and its own
round is open again. -/
def closedOnMissedHolding (existing : Position) (round : LedgerRound) : Bool :=
  existing.closedReason == some closedExternally && existing.exitTransactionSignature.isNone &&
    !existing.historyComplete && !existing.syntheticExit && existing.pnl.isNone &&
    !existing.archived && existing.roundKey == some round.roundKey && round.isOpen &&
    existing.acquiredAmount.any fun acquired => !isDust round.balanceRaw acquired

/-- Lowers an open row's holding from `claimed` to `observed` when tokens left the wallet. -/
def shrinkTo (p : Position) (claimed observed : ℕ) : Position :=
  if claimed ≤ observed then p
  else match p.bookExit (claimed - observed) with
    | .ok p => p
    | .error _ => { p with remainingTokenAmount := some observed, historyComplete := false }

/-- True when the row's books carry every acquisition of the part that happened outside the
bot, by amount and by a complete basis. -/
def outsideAcquisitionsCarried (p : Position) (own : TraderLegs) (outside : OutsideProceeds) :
    Bool :=
  decide (outside.acquired = 0) ||
    (p.basisComplete && (checkedRaw (own.bookedAcquired + outside.acquired)).any fun needed =>
      p.acquiredAmount.any fun acquired => decide (needed ≤ acquired))

/-- Books on an open row what its part sold outside the bot, recomputed whole on every pass. -/
def bookOutsideProceeds (p : Position) (own : TraderLegs) (outside : Option OutsideProceeds) :
    Position :=
  match outside with
  | none => p
  | some outside =>
    if outsideAcquisitionsCarried p own outside then
      { p with nativeReceived := some (own.bookedReceivedNative + outside.native) }
    else p

def roundHasOutsideAcquisition (round : LedgerRound) (a : RoundAttribution) : Bool :=
  round.events.any fun event => event.kind.isAcquisition && a.isOutside event.signature

/-- Which proceeds a round closed outside the bot books on the row it closes. -/
inductive CloseProceeds where
  | round
  | outside (ownNative : ℚ) (sold : Option OutsideProceeds)
  | unknown
  deriving DecidableEq, Repr

def closePricing (round : LedgerRound) : CloseProceeds → Option (ℚ × ℚ)
  | .round => round.averageExitPriceNative.map fun price => (price, round.realizedProceedsNative)
  | .outside ownNative sold =>
    sold.map fun sold => (sold.native / sold.tokens, ownNative + sold.native)
  | .unknown => none

/-- The whole holding is gone; an exited total out of range leaves a hole in the history. -/
def bookGone (p : Position) : Position :=
  match p.bookRemainingAsExited with
  | .ok p => p
  | .error _ => { p with historyComplete := false }

/-- The row closed with its round, or when the round was last seen. -/
def markClosed (p : Position) (round : LedgerRound) (now : ℤ) : Position :=
  { p with
    remainingTokenAmount := some 0
    exitTime := some (((round.closedAt.bind fromTimestamp).or
      (round.lastSeenAt.bind fromTimestamp)).getD now)
    exitTransactionSignature := p.exitTransactionSignature.or round.exitSignature
    transactionExitVerified := true
    closedReason := p.closedReason.or (some closedExternally)
    unrealizedPnl := none
    unrealizedPnlPercent := none }

/-- Proceeds only when every disposal counted was priced and the history reconciles. -/
def priceClose (p : Position) (round : LedgerRound) (proceeds : CloseProceeds) : Position :=
  if !round.historyComplete then { p with historyComplete := false }
  else if proceeds = .unknown then { p with historyComplete := false }
  else match closePricing round proceeds with
    | none => p
    | some (exitPrice, nativeReceived) =>
      let p := { p with
        exitPrice := some exitPrice
        effectiveExitPrice := some exitPrice
        averageExitPrice := some exitPrice
        nativeReceived := some nativeReceived }
      if dust < p.totalSizeNative then p.restatePnl else p

def closeOwnedPosition (p : Position) (round : LedgerRound) (proceeds : CloseProceeds) (now : ℤ) :
    Position :=
  priceClose (markClosed (bookGone p) round now) round proceeds

/-- The holding a bot row takes on when acquisitions made outside the bot grew it. -/
structure Growth where
  held : ℕ
  acquired : ℕ
  exited : ℕ
  /-- What everything acquired cost, `none` when part of it has no SOL price. -/
  investedNative : Option ℚ
  deriving DecidableEq, Repr

/-- Fold acquisitions the user made outside the bot into a bot-owned row. -/
def adoptExternalGrowth (p : Position) (growth : Growth) (decimals : ℕ) : Position :=
  let acquiredBefore := p.acquiredAmount.getD 0
  let investedBefore := p.totalSizeNative
  let p := { p with
    remainingTokenAmount := some growth.held
    tokenAmount := some growth.acquired
    totalExitedAmount := growth.exited }
  match growth.investedNative with
  | none => { p with basisComplete := false }
  | some investedNative =>
    let p := { p with totalSizeNative := investedNative }
    let heldWhole := toWholeUnits growth.held decimals
    let grownWhole := toWholeUnits (growth.acquired - acquiredBefore) decimals
    let grownCost := investedNative - investedBefore
    let average := if growth.exited = 0 then (HeldCost.new.acquire investedNative).average heldWhole
      else averageAfterAcquisition p.averageEntryPrice grownWhole grownCost heldWhole
    match average with
    | some average => p.moveAverageEntryPrice average (grownCost / grownWhole)
    | none => p

/-- What a round the row owns alone cost: the trader's booked SOL for its own legs, plus the
chain's SOL for every other traded acquisition. -/
def wholeRoundInvested (existing : Position) (round : LedgerRound) (legs : TraderLegs) : ℚ :=
  let (bookedSignatures, bookedNative) := if legs.entrySignatures = ∅ then
    (existing.entryTransactionSignature.toFinset, existing.totalSizeNative)
    else (legs.entrySignatures, legs.bookedInvestedNative)
  let external := round.events.filter fun event =>
    (event.kind == .entry || event.kind == .add) && decide (event.signature ∉ bookedSignatures)
  bookedNative + (external.filterMap solQuote).sum

/-- The open row as its part of a shared round leaves it: grown, or else shrunk. -/
def followPart (p : Position) (share : RoundShare) (decimals : ℕ) : Position × Bool :=
  let grown := share.hasOutsideAcquisition && share.historyComplete &&
    p.acquiredAmount.any fun before => decide (before < share.acquired)
  if grown then
    (adoptExternalGrowth p ⟨share.held, share.acquired, share.acquired - share.held,
      if share.basisKnown then some share.investedNative else none⟩ decimals, true)
  else (p, false)

/-- The open row as a round it owns alone leaves it: grown, or else shrunk. -/
def followWholeRound (p existing : Position) (round : LedgerRound) (a : RoundAttribution) :
    Position × Bool :=
  let grown := round.historyComplete && roundHasOutsideAcquisition round a &&
    p.acquiredAmount.any fun before => decide (before < round.totalAcquiredRaw)
  if grown then
    (adoptExternalGrowth p ⟨round.balanceRaw, round.totalAcquiredRaw, round.totalDisposedRaw,
      if round.basisComplete then some (wholeRoundInvested existing round a.own) else none⟩
      round.decimals, true)
  else (p, false)

def reconcilePart (p : Position) (round : LedgerRound) (earlier : List LedgerRound)
    (a : RoundAttribution) (now : ℤ) : Position :=
  let outside := outsideProceeds round earlier a
  let claimedRemaining := p.remainingTokenAmount.getD 0
  match (roundShare round earlier a).filter fun share =>
    decide (claimedRemaining ≤ share.acquired) with
  | none => if round.isOpen then p else closeOwnedPosition p round .unknown now
  | some share =>
    let (p, grown) := followPart p share round.decimals
    if round.isOpen then
      bookOutsideProceeds (if grown then p else shrinkTo p claimedRemaining share.held)
        a.own outside
    else
      let proceeds := if !share.historyComplete then CloseProceeds.unknown
        else if outside.any fun sold => !outsideAcquisitionsCarried p a.own sold then .unknown
        else .outside a.own.bookedReceivedNative outside
      closeOwnedPosition p round proceeds now

def reconcileWholeRound (p existing : Position) (round : LedgerRound) (earlier : List LedgerRound)
    (a : RoundAttribution) (now : ℤ) : Position :=
  let outside := outsideProceeds round earlier a
  let claimedRemaining := p.remainingTokenAmount.getD 0
  let (p, grown) := followWholeRound p existing round a
  if round.isOpen then
    bookOutsideProceeds (if grown then p else shrinkTo p claimedRemaining round.balanceRaw) a.own
      outside
  else closeOwnedPosition p round .round now

/-- Reconcile a position the bot executed against what the chain says the wallet holds. A closed
row is settled: only its round key and holding state are stamped, unless its close missed a
holding that is still there. -/
def reconcileOwnedPosition (existing : Position) (round : LedgerRound) (earlier : List LedgerRound)
    (meta' : RoundMetadata) (a : RoundAttribution) (now : ℤ) : Position :=
  let stamped := { existing with
    roundKey := some round.roundKey, holdingState := frozenState meta' round }
  let follow := fun p : Position => if a.chargesPart round earlier then
    reconcilePart p round earlier a now else reconcileWholeRound p existing round earlier a now
  if existing.exitTime.isSome then
    if !closedOnMissedHolding existing round then stamped
    else match stamped.reopenMissedHolding with
      | .error _ => existing
      | .ok reopened => follow { reopened with historyComplete := round.historyComplete }
  else follow stamped

/-- Money amounts closer than the ledger's dust are the same. -/
def sameMoney (a b : ℚ) : Bool := decide (|a - b| ≤ dust)

def sameOptMoney : Option ℚ → Option ℚ → Bool
  | none, none => true
  | some a, some b => sameMoney a b
  | _, _ => false

def differsOwned (existing fresh : Position) : Bool :=
  existing.roundKey != fresh.roundKey || existing.holdingState != fresh.holdingState ||
    existing.remainingTokenAmount != fresh.remainingTokenAmount ||
    existing.tokenAmount != fresh.tokenAmount ||
    existing.totalExitedAmount != fresh.totalExitedAmount ||
    existing.basisComplete != fresh.basisComplete ||
    !sameMoney existing.totalSizeNative fresh.totalSizeNative ||
    !sameMoney existing.averageEntryPrice fresh.averageEntryPrice ||
    existing.exitTime != fresh.exitTime ||
    existing.exitTransactionSignature != fresh.exitTransactionSignature ||
    existing.transactionExitVerified != fresh.transactionExitVerified ||
    existing.closedReason != fresh.closedReason ||
    existing.unrealizedPnl != fresh.unrealizedPnl ||
    !sameOptMoney existing.exitPrice fresh.exitPrice ||
    !sameOptMoney existing.nativeReceived fresh.nativeReceived ||
    !sameOptMoney existing.pnl fresh.pnl

/-- True when the ledger-owned fields of `fresh` say something different from `existing`. -/
def differs (existing fresh : Position) : Bool :=
  existing.entryTime != fresh.entryTime || existing.exitTime != fresh.exitTime ||
    existing.transactionExitVerified != fresh.transactionExitVerified ||
    existing.remainingTokenAmount != fresh.remainingTokenAmount ||
    existing.totalExitedAmount != fresh.totalExitedAmount ||
    existing.tokenAmount != fresh.tokenAmount || existing.dcaCount != fresh.dcaCount ||
    existing.partialExitCount != fresh.partialExitCount ||
    existing.basisComplete != fresh.basisComplete ||
    existing.historyComplete != fresh.historyComplete ||
    existing.holdingState != fresh.holdingState ||
    existing.entryTransactionSignature != fresh.entryTransactionSignature ||
    existing.exitTransactionSignature != fresh.exitTransactionSignature ||
    existing.symbol != fresh.symbol || existing.name != fresh.name ||
    !sameMoney existing.totalSizeNative fresh.totalSizeNative ||
    !sameMoney existing.entryPrice fresh.entryPrice ||
    !sameOptMoney existing.exitPrice fresh.exitPrice ||
    !sameOptMoney existing.nativeReceived fresh.nativeReceived ||
    !sameOptMoney existing.pnl fresh.pnl

def isBusy (p : Position) (busyMints : List String) : Bool :=
  let exitInFlight := p.exitTransactionSignature.isSome && !p.transactionExitVerified
  !p.transactionEntryVerified || exitInFlight || busyMints.contains p.mint

/-- The rewrite a round implies for a row it claimed, or `none` when the row must be left as it
is. -/
def rewriteRow (current : Position) (round : LedgerRound) (earlier : List LedgerRound)
    (meta' : RoundMetadata) (a : Option RoundAttribution) (busyMints : List String) (now : ℤ) :
    Option Position :=
  if current.isWalletDerived then
    let fresh := buildPosition round meta' (some current) now
    if differs current fresh then some fresh else none
  else if isBusy current busyMints then none
  else a.bind fun a =>
    let fresh := reconcileOwnedPosition current round earlier meta' a now
    if differsOwned current fresh then some fresh else none

end ScreenerBot.Positions
