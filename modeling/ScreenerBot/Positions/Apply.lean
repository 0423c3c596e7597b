import ScreenerBot.Positions.Store

/-! Verified transitions booked onto the rows of a mint, on time or after a row closed. -/
namespace ScreenerBot.Positions
open Library

/-- A verified swap, with the wallet's holding of the mint after it when it could be read. -/
inductive Transition where
  | entryVerified (positionId : ℤ) (fill : EntryFill) (heldAfter : Option ℕ)
  | exitVerified (positionId : ℤ) (fill : CloseFill) (exitSignature : String) (exitAmount : ℕ)
      (heldAfter : Option ℕ)
  | partialExitVerified (positionId : ℤ) (exitAmount : ℕ) (nativeReceived effectiveExitPrice : ℚ)
      (feeRaw : ℕ) (exitTime : ℤ) (exitSignature : String) (exitPercentage : ℚ)
      (heldAfter : Option ℕ)
  | dcaVerified (positionId : ℤ) (fill : DcaFill) (effectivePrice : ℚ) (dcaSignature : String)
      (heldAfter : Option ℕ)
  deriving DecidableEq, Repr

/-- What is read outside the store when a transition is applied: the other swaps of the mint
in flight, an add of the position still confirming, the token's decimals, and what the live
price makes of the position. -/
structure Readings where
  otherSwapInFlight : Bool
  ownAddPending : Bool
  decimals : Option ℕ
  mark : Option (ℚ × ℚ)
  deriving DecidableEq, Repr

/-- The wallet's holding after a swap, as a late fill of one position may use it. -/
structure LateFillReading where
  heldAfter : Option ℕ
  otherSwapInFlight : Bool
  signature : Option String
  time : ℤ
  decimals : Option ℕ
  deriving DecidableEq, Repr

/-- A verified swap booked onto a position that was already closed. -/
structure LateFill where
  afterWriteOff : Bool
  follow : FollowOutcome
  handedTo : Option ℤ
  unarchived : Bool
  deriving DecidableEq, Repr

def isWalletHistoryCloseReason (reason : Option String) : Bool :=
  reason.any fun reason => reason == closedExternally || reason == exitRetryPending ||
    pendingVerificationSuffix.toList.isSuffixOf reason.toList

/-- Whether the close of `row` came from the wallet history and its proceeds already count a
sale made at `saleTime`. -/
def ledgerCloseCounts (row : Position) (saleTime : ℤ) : Bool :=
  !row.syntheticExit && row.historyComplete && row.transactionExitVerified &&
    isWalletHistoryCloseReason row.closedReason && row.exitTime.any fun closed =>
      decide (saleTime ≤ closed)

/-- The wallet's holding attributable to a closed row after a late swap, counting `unbooked`
more acquired than the row has booked. -/
def lateFillHolding (st : Store) (positionId : ℤ) (row : Position) (reading : LateFillReading)
    (unbooked : ℕ) : Except BookingError ℕ :=
  if reading.otherSwapInFlight then .error (.holdingUnattributable row.mint)
  else match reading.heldAfter with
    | none => .error .settlementRead
    | some heldAfter =>
      match row.acquiredAmount.bind fun acquired => checkedRaw (acquired + unbooked) with
      | none => .error (.amountOverflow row.mint "following the round")
      | some acquired => do
        let others ← st.otherOpenHeld row.mint positionId
        return attributableHeld heldAfter others acquired

/-- Books the part of a full sale of `sold` tokens that exceeds what the open row holds as an
acquisition without a cost. -/
def absorbUnbookedSale (row : Position) (sold : ℕ) : Except BookingError Position :=
  let excess := sold - row.remainingTokenAmount.getD 0
  if excess = 0 then .ok row
  else match row.acquiredAmount with
    | none => .error (.amountOverflow row.mint "absorbing an unbooked sale")
    | some acquired =>
      if isDust excess acquired then .ok row
      else do
        let row ← row.bookAcquisition excess
        return { row with basisComplete := false }

/-- Whether the sale that closed `row` is one the row holds an exit record for. -/
def closingSaleRecorded (st : Store) (positionId : ℤ) (row : Position) : Bool :=
  !row.syntheticExit && row.exitTransactionSignature.any (st.exitRecordExists positionId)

/-- What a closed position hands to the open position of its mint, and how the add is
recorded there. -/
structure HandoverRecord where
  handover : Handover
  price : Option ℚ
  feesRaw : Option ℕ
  deriving DecidableEq, Repr

/-- The price a handover is recorded at: the given one, else the handed-over cost over the
handed-over tokens when usable, else the closed row's average. -/
def handoverPrice (row : Position) (decimals : Option ℕ) (record : HandoverRecord) : ℚ :=
  record.price.getD <|
    ((decimals.map fun decimals =>
      Binary64.div record.handover.costNative
        (Rounded.toWholeUnits record.handover.tokens decimals)).filter
        fun price => decide (0 < price)).getD row.averageEntryPrice

def bringBack (may : Bool) (row : Position) : Position :=
  if row.archived && may then { row with archived := false, archivedAt := none } else row

def bookHandover (reading : LateFillReading) (record : HandoverRecord) (mayUnarchive : Bool)
    (opened : Position) : Except BookingError Position := do
  let opened ← opened.bookDca
    ⟨record.handover.tokens, record.handover.costNative, record.feesRaw.getD 0, reading.time⟩
  let opened := match reading.decimals with
    | some decimals =>
      opened.blendAverageEntryPrice record.handover.tokens record.handover.costNative decimals
    | none => opened
  return bringBack mayUnarchive opened

/-- Books what a closed row handed over as an add on the open position `openRoundId`, recorded
there under the late swap's signature. An open position that already records the swap is
refused, so nothing is moved twice. -/
def handOver (st : Store) (row : Position) (reading : LateFillReading) (openRoundId : ℤ)
    (record : HandoverRecord) : Except BookingError Store :=
  match reading.signature with
  | none => .error (.transitionFailed "late_fill" row.mint)
  | some signature => do
    let may := st.mayUnarchive row.mint openRoundId
    let booked ← st.bookOpenRound openRoundId signature fun opened => do
      let opened ← bookHandover reading record may opened
      return (opened, {
        positionId := openRoundId
        timestamp := reading.time
        amount := record.handover.tokens
        price := handoverPrice row reading.decimals record
        nativeSpent := record.handover.costNative
        transactionSignature := signature
        isDca := true
        feesRaw := record.feesRaw })
    match booked with
    | none => throw (.transitionFailed "late_fill" row.mint)
    | some (_, st) => return st

/-- Makes a closed row, with a late swap's own leg already booked on it, follow its round.
Beside another open position of the mint the holding is handed to that position at the row's
average cost. -/
def lateFill (st : Store) (positionId : ℤ) (row : Position) (reading : LateFillReading)
    (afterWriteOff saleRecorded : Bool) : Except BookingError (Position × Store × LateFill) := do
  let held ← lateFillHolding st positionId row reading 0
  match st.openRoundBeside row.mint positionId with
  | none =>
    let (row, follow) ← row.followRound held saleRecorded
    return (row, st, ⟨afterWriteOff, follow, none, false⟩)
  | some openRoundId =>
    let (row, follow, handover) ← row.handOverRound held saleRecorded
    match handover with
    | none => return (row, st, ⟨afterWriteOff, follow, none, false⟩)
    | some handover =>
      let st ← handOver st row reading openRoundId ⟨handover, none, none⟩
      return (row, st, ⟨afterWriteOff, follow, some openRoundId, false⟩)

structure KeptLeg where
  leg : Leg
  feeRaw : ℕ
  deriving DecidableEq, Repr

/-- Books a buy that landed on a closed row; the part of it the wallet still holds goes to the
open position of the mint, when there is one. -/
def lateDca (st : Store) (positionId : ℤ) (row : Position) (reading : LateFillReading)
    (afterWriteOff : Bool) (fill : DcaFill) (price : ℚ) :
    Except BookingError (Position × Store × LateFill × KeptLeg) := do
  let whole : KeptLeg := ⟨⟨fill.tokensBought, fill.nativeSpent⟩, fill.feeRaw⟩
  let saleRecorded := closingSaleRecorded st positionId row
  let held ← lateFillHolding st positionId row reading fill.tokensBought
  match st.openRoundBeside row.mint positionId with
  | none =>
    let row ← row.bookDca fill
    let (row, follow) ← row.followRound held saleRecorded
    return (row, st, ⟨afterWriteOff, follow, none, false⟩, whole)
  | some openRoundId =>
    let (row, follow, split) ← row.handOverLeg fill held saleRecorded
    if follow ≠ .handedOver then
      return (row, st, ⟨afterWriteOff, follow, none, false⟩, whole)
    match split.handed with
    | none => throw (.amountOverflow row.mint "handing a late buy over")
    | some handover =>
      -- earlier tokens carried with the buy make the record's price their blended average
      let price := if split.handedEarlier.tokens = 0 then some price else none
      let st ← handOver st row reading openRoundId ⟨handover, price, some split.handedFeeRaw⟩
      return (row, st, ⟨afterWriteOff, follow, some openRoundId, false⟩,
        ⟨split.kept, split.keptFeeRaw⟩)

/-- Brings a row back from the archive when a late buy reopened it. -/
def bringBackReopened (st : Store) (row : Position) (late : LateFill) : Position × LateFill :=
  match row.id with
  | none => (row, late)
  | some positionId =>
    if late.follow = .reopened ∧ row.archived = true ∧
      st.mayUnarchive row.mint positionId = true then
      ({ row with archived := false, archivedAt := none }, { late with unarchived := true })
    else (row, late)

/-- A verified entry. The fill overwrites the held amount and the size, so the verified flag
and the entry record decide whether it is already booked. -/
def bookEntryVerified (st : Store) (positionId : ℤ) (fill : EntryFill) (heldAfter : Option ℕ)
    (readings : Readings) (row : Position) : Except BookingError (Booking (Option LateFill)) :=
  if row.transactionEntryVerified ||
      row.entryTransactionSignature.any (st.entryRecordExists positionId) then .ok .skip
  else do
    let afterWriteOff := row.syntheticExit
    let closed := row.isClosed
    let entryTime := row.entryTime
    let reading : LateFillReading :=
      ⟨heldAfter, readings.otherSwapInFlight, row.entryTransactionSignature, entryTime,
        readings.decimals⟩
    let row := row.applyEntryFill fill
    let record := row.entryTransactionSignature.map fun signature => BookingRecord.entry {
      positionId := positionId
      timestamp := entryTime
      amount := fill.tokenAmount
      price := fill.effectiveEntryPrice
      nativeSpent := fill.nativeSize
      transactionSignature := signature
      isDca := false
      feesRaw := some fill.feeRaw }
    if closed then
      let (row, st, late) ← lateFill st positionId row reading afterWriteOff
        (closingSaleRecorded st positionId row)
      let (row, late) := bringBackReopened st row late
      return .write row st record (some late)
    else return .write row st record none

/-- A sale that closed the row under this very swap, or that its close from the wallet history
already counts, is not booked again on the closed row. -/
def closeHoldsSale (row : Position) (exitSignature : String) (exitTime : ℤ) : Bool :=
  (!row.syntheticExit && row.exitTransactionSignature == some exitSignature) ||
    ledgerCloseCounts row exitTime

/-- A verified full exit. It accumulates, so the exit record of the swap decides whether it is
already booked. -/
def bookExitVerified (st : Store) (positionId : ℤ) (fill : CloseFill) (exitSignature : String)
    (exitAmount : ℕ) (heldAfter : Option ℕ) (readings : Readings) (row : Position) :
    Except BookingError (Booking (Option LateFill)) :=
  let record := BookingRecord.exit {
    positionId := positionId
    timestamp := fill.exitTime
    amount := exitAmount
    price := fill.effectiveExitPrice
    nativeReceived := fill.nativeReceived
    transactionSignature := exitSignature
    isPartial := false
    percentage := 100
    feesRaw := some fill.feeRaw }
  let reading : LateFillReading :=
    ⟨heldAfter, readings.otherSwapInFlight, some exitSignature, fill.exitTime, readings.decimals⟩
  if st.exitRecordExists positionId exitSignature then .ok .skip
  else if row.isClosed then
    if closeHoldsSale row exitSignature fill.exitTime then .ok .skip
    else do
      let afterWriteOff := row.syntheticExit
      let earlierSaleRecorded := closingSaleRecorded st positionId row
      let row := row.bookLateClose fill
      let row := if afterWriteOff then
        { row with exitTransactionSignature := some exitSignature } else row
      let (row, st, late) ← lateFill st positionId row reading afterWriteOff true
      let row := if earlierSaleRecorded ∧ late.follow = .reopened then
        { row with partialExitCount := row.partialExitCount + 1 } else row
      return .write row st (some record) (some late)
  else if row.transactionExitVerified then .ok .skip
  else do
    -- a submission whose row write failed is supplied its signature by the verified swap
    let row := { row with
      exitTransactionSignature := row.exitTransactionSignature.or (some exitSignature) }
    let row ← if readings.ownAddPending then .ok row else absorbUnbookedSale row exitAmount
    let row ← row.bookClose fill
    return .write row st (some record) none

/-- A verified partial exit. It accumulates, and its exit record decides whether it is already
booked. -/
def bookPartialExitVerified (st : Store) (positionId : ℤ) (exitAmount : ℕ)
    (nativeReceived effectiveExitPrice : ℚ) (feeRaw : ℕ) (exitTime : ℤ) (exitSignature : String)
    (exitPercentage : ℚ) (heldAfter : Option ℕ) (readings : Readings) (row : Position) :
    Except BookingError (Booking (Option LateFill)) :=
  let record := BookingRecord.exit {
    positionId := positionId
    timestamp := exitTime
    amount := exitAmount
    price := effectiveExitPrice
    nativeReceived := nativeReceived
    transactionSignature := exitSignature
    isPartial := true
    percentage := exitPercentage
    feesRaw := some feeRaw }
  let reading : LateFillReading :=
    ⟨heldAfter, readings.otherSwapInFlight, some exitSignature, exitTime, readings.decimals⟩
  if st.exitRecordExists positionId exitSignature then .ok .skip
  else if row.isClosed then
    if ledgerCloseCounts row exitTime then .ok .skip
    else do
      let afterWriteOff := row.syntheticExit
      let row := row.bookLatePartialExit nativeReceived feeRaw
      let (row, st, late) ← lateFill st positionId row reading afterWriteOff
        (closingSaleRecorded st positionId row)
      return .write row st (some record) (some late)
  else do
    let row ← row.bookPartialExit
      ⟨exitAmount, nativeReceived, effectiveExitPrice, readings.mark, feeRaw⟩
    return .write row st (some record) none

/-- Blends the part of a buy the row booked into its average; without the token's decimals the
average is left as it is. -/
def blendBooked (row : Position) (kept : KeptLeg) (decimals : Option ℕ) : Position :=
  match decimals with
  | some decimals => row.blendAverageEntryPrice kept.leg.tokens kept.leg.costNative decimals
  | none => row

/-- A verified add. It accumulates; a buy handed over to the open position of the mint is
recorded there, so the record of any position of the mint marks it booked. -/
def bookDcaVerified (st : Store) (positionId : ℤ) (fill : DcaFill) (effectivePrice : ℚ)
    (dcaSignature : String) (heldAfter : Option ℕ) (readings : Readings) (row : Position) :
    Except BookingError (Booking (Option LateFill)) :=
  let reading : LateFillReading :=
    ⟨heldAfter, readings.otherSwapInFlight, some dcaSignature, fill.dcaTime, readings.decimals⟩
  let record (kept : KeptLeg) : Option BookingRecord :=
    if 0 < kept.leg.tokens then some (.entry {
      positionId := positionId
      timestamp := fill.dcaTime
      amount := kept.leg.tokens
      price := effectivePrice
      nativeSpent := kept.leg.costNative
      transactionSignature := dcaSignature
      isDca := true
      feesRaw := some kept.feeRaw })
    else none
  if st.entryRecordedForMint row.mint dcaSignature then .ok .skip
  else if row.isClosed then do
    let (row, st, late, kept) ← lateDca st positionId row reading row.syntheticExit fill
      effectivePrice
    let (row, late) := bringBackReopened st row late
    -- a row that stays closed keeps the average its round was priced at
    let row := if late.follow = .reopened then blendBooked row kept readings.decimals else row
    return .write row st (record kept) (some late)
  else do
    let row ← row.bookDca fill
    let row := bringBack (st.mayUnarchive row.mint positionId) row
    let whole : KeptLeg := ⟨⟨fill.tokensBought, fill.nativeSpent⟩, fill.feeRaw⟩
    return .write (blendBooked row whole readings.decimals) st (record whole) none

def Transition.positionId : Transition → ℤ
  | entryVerified positionId .. => positionId
  | exitVerified positionId .. => positionId
  | partialExitVerified positionId .. => positionId
  | dcaVerified positionId .. => positionId

def Transition.book (st : Store) (readings : Readings) :
    Transition → Position → Except BookingError (Booking (Option LateFill))
  | entryVerified positionId fill heldAfter =>
    bookEntryVerified st positionId fill heldAfter readings
  | exitVerified positionId fill exitSignature exitAmount heldAfter =>
    bookExitVerified st positionId fill exitSignature exitAmount heldAfter readings
  | partialExitVerified positionId exitAmount nativeReceived effectiveExitPrice feeRaw exitTime
      exitSignature exitPercentage heldAfter =>
    bookPartialExitVerified st positionId exitAmount nativeReceived effectiveExitPrice feeRaw
      exitTime exitSignature exitPercentage heldAfter readings
  | dcaVerified positionId fill effectivePrice dcaSignature heldAfter =>
    bookDcaVerified st positionId fill effectivePrice dcaSignature heldAfter readings

def applyTransition (st : Store) (readings : Readings) (t : Transition) :
    Except BookingError (Committed (Option LateFill)) :=
  commitBooking st t.positionId (t.book st readings)

structure Delivery where
  transition : Transition
  readings : Readings
  deriving DecidableEq, Repr

/-- The store after a delivery: one that is refused or skipped leaves it as it was. -/
def deliver (st : Store) (d : Delivery) : Store :=
  match applyTransition st d.readings d.transition with
  | .ok (.written _ st' _) => st'
  | _ => st

end ScreenerBot.Positions
