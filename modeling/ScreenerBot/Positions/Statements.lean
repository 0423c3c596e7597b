import ScreenerBot.Library.Transaction
import ScreenerBot.Positions.Apply

/-! The bookings statement by statement: each reads its row, decides, and writes rows and records
one after the other in one transaction, whose committed row is then published to memory. -/
namespace ScreenerBot.Positions
open Library

inductive StoreError where
  | refused (error : BookingError)
  | database
  deriving DecidableEq, Repr

abbrev Tx (α : Type) := Statements Store StoreError α

namespace Tx

/-- What a booking decided for the row it was handed. -/
inductive Booking (τ : Type) where
  | write (row : Position) (record : Option BookingRecord) (outcome : τ)
  | delete (outcome : τ)
  | skip (outcome : τ)

/-- Outcome of a booking transaction. -/
inductive Committed (τ : Type) where
  | written (row : Position) (outcome : τ)
  | deleted (row : Position) (outcome : τ)
  | skipped (outcome : τ)
  deriving DecidableEq

def read {α : Type} (query : Store → α) : Tx α := .statement (fun st => (query st, st)) pure

def write (update : Store → Store) : Tx Unit := .statement (fun st => ((), update st)) pure

/-- A decision made between two statements. -/
def lift {α : Type} (x : Except BookingError α) : Tx α := .done (x.mapError .refused)

def readRow (positionId : ℤ) : Tx Position := do
  match ← read (·.rows.lookup positionId) with
  | none => lift (.error (.notFoundById positionId))
  | some row => return row

/-- Writes the columns of a row, which its archive flag is not among. -/
def writePositionRow (positionId : ℤ) (row : Position) : Tx Unit :=
  write fun st => match st.rows.lookup positionId with
    | none => st
    | some old => { st with rows := st.rows.insert positionId { row with
        archived := old.archived
        archivedAt := old.archivedAt
        basisPeakRestarted := false } }

/-- Clears the archive flag of a row a booking brought back to the open positions. -/
def writeUnarchived (positionId : ℤ) : Tx Unit :=
  write fun st => match st.rows.lookup positionId with
    | none => st
    | some row => { st with rows := st.rows.insert positionId { row with
        archived := false
        archivedAt := none } }

def deleteRow (positionId : ℤ) : Tx Unit :=
  write fun st => {
    rows := st.rows.erase positionId
    entries := st.entries.filter (·.positionId != positionId)
    exits := st.exits.filter (·.positionId != positionId) }

/-- Writes the row a booking left of `old`. -/
def storeRow (positionId : ℤ) (old row : Position) : Tx Unit := do
  writePositionRow positionId row
  if old.archived && !row.archived then writeUnarchived positionId

def writeRecord : Option BookingRecord → Tx Unit
  | some record => write (·.insertRecord record)
  | none => return ()

/-- Books onto the stored row: reads it, hands it to `book`, then writes the row it left and its
record. -/
def runBooking {τ : Type} (positionId : ℤ) (book : Position → Tx (Booking τ)) :
    Tx (Ending (Committed τ)) := do
  let row ← readRow positionId
  match ← book row with
  | .skip outcome => return .drop (.skipped outcome)
  | .delete outcome =>
    deleteRow positionId
    return .commit (.deleted row outcome)
  | .write left record outcome =>
    storeRow positionId row left
    writeRecord record
    return .commit (.written left outcome)

/-- Books onto the open position `openRoundId` inside the transaction; `none` when it already has
an entry record for `signature`. -/
def bookOpenRound (openRoundId : ℤ) (signature : String)
    (book : Position → Except BookingError (Position × EntryRecord)) : Tx (Option Position) := do
  if ← read (·.entryRecordExists openRoundId signature) then return none
  let old ← readRow openRoundId
  let (row, record) ← lift (book old)
  storeRow openRoundId old row
  write (·.insertEntryRecord record)
  return some row

def closingSaleRecorded (positionId : ℤ) (row : Position) : Tx Bool :=
  if row.syntheticExit then return false
  else match row.exitTransactionSignature with
    | some signature => read (·.exitRecordExists positionId signature)
    | none => return false

/-- Whether a buy booked on an archived open position may bring it back. -/
def mayUnarchive (mint : String) (positionId : ℤ) : Tx Bool := do
  let active ← read (·.activeOpenRoundsBeside mint positionId)
  return active.isEmpty

def lateFillHolding (positionId : ℤ) (row : Position) (reading : LateFillReading) (unbooked : ℕ) :
    Tx ℕ :=
  if reading.otherSwapInFlight then lift (.error (.holdingUnattributable row.mint))
  else match reading.heldAfter with
    | none => lift (.error .settlementRead)
    | some heldAfter =>
      match row.acquiredAmount.bind fun acquired => checkedRaw (acquired + unbooked) with
      | none => lift (.error (.amountOverflow row.mint "following the round"))
      | some acquired => do
        let others ← lift (← read (·.otherOpenHeld row.mint positionId))
        return attributableHeld heldAfter others acquired

def handOver (row : Position) (reading : LateFillReading) (openRoundId : ℤ)
    (record : HandoverRecord) : Tx Unit :=
  match reading.signature with
  | none => lift (.error (.transitionFailed "late_fill" row.mint))
  | some signature => do
    let may ← mayUnarchive row.mint openRoundId
    let booked ← bookOpenRound openRoundId signature fun opened => do
      let opened ← bookHandover reading record may opened
      return (opened, {
        positionId := openRoundId
        timestamp := reading.time
        amount := record.handover.tokens
        price := handoverPrice row reading.decimals record
        nativeSpent := record.handover.costNative
        transactionSignature := signature
        isDca := true
        feesRaw := record.feesRaw })
    match booked with
    | none => lift (.error (.transitionFailed "late_fill" row.mint))
    | some _ => return ()

def lateFill (positionId : ℤ) (row : Position) (reading : LateFillReading)
    (afterWriteOff saleRecorded : Bool) : Tx (Position × LateFill) := do
  let held ← lateFillHolding positionId row reading 0
  match ← read (·.openRoundBeside row.mint positionId) with
  | none =>
    let (row, follow) ← lift (row.followRound held saleRecorded)
    return (row, ⟨afterWriteOff, follow, none, false⟩)
  | some openRoundId =>
    let (row, follow, handover) ← lift (row.handOverRound held saleRecorded)
    match handover with
    | none => return (row, ⟨afterWriteOff, follow, none, false⟩)
    | some handover =>
      handOver row reading openRoundId ⟨handover, none, none⟩
      return (row, ⟨afterWriteOff, follow, some openRoundId, false⟩)

def lateDca (positionId : ℤ) (row : Position) (reading : LateFillReading) (afterWriteOff : Bool)
    (fill : DcaFill) (price : ℚ) : Tx (Position × LateFill × KeptLeg) := do
  let whole : KeptLeg := ⟨⟨fill.tokensBought, fill.nativeSpent⟩, fill.feeRaw⟩
  let saleRecorded ← closingSaleRecorded positionId row
  let held ← lateFillHolding positionId row reading fill.tokensBought
  match ← read (·.openRoundBeside row.mint positionId) with
  | none =>
    let row ← lift (row.bookDca fill)
    let (row, follow) ← lift (row.followRound held saleRecorded)
    return (row, ⟨afterWriteOff, follow, none, false⟩, whole)
  | some openRoundId =>
    let (row, follow, split) ← lift (row.handOverLeg fill held saleRecorded)
    if follow ≠ .handedOver then
      return (row, ⟨afterWriteOff, follow, none, false⟩, whole)
    else match split.handed with
    | none => lift (.error (.amountOverflow row.mint "handing a late buy over"))
    | some handover =>
      let price := if split.handedEarlier.tokens = 0 then some price else none
      handOver row reading openRoundId ⟨handover, price, some split.handedFeeRaw⟩
      return (row, ⟨afterWriteOff, follow, some openRoundId, false⟩,
        ⟨split.kept, split.keptFeeRaw⟩)

def bringBackReopened (row : Position) (late : LateFill) : Tx (Position × LateFill) :=
  match row.id with
  | none => return (row, late)
  | some positionId =>
    if late.follow = .reopened ∧ row.archived = true then do
      if ← mayUnarchive row.mint positionId then
        return ({ row with archived := false, archivedAt := none },
          { late with unarchived := true })
      else return (row, late)
    else return (row, late)

def entryBooked (positionId : ℤ) (row : Position) : Tx Bool :=
  if row.transactionEntryVerified then return true
  else match row.entryTransactionSignature with
    | some signature => read (·.entryRecordExists positionId signature)
    | none => return false

def bookEntryVerified (positionId : ℤ) (fill : EntryFill) (heldAfter : Option ℕ)
    (readings : Readings) (row : Position) : Tx (Booking (Option LateFill)) := do
  if ← entryBooked positionId row then return .skip none
  else
    let afterWriteOff := row.syntheticExit
    let closed := row.isClosed
    let entryTime := row.entryTime
    let reading : LateFillReading :=
      ⟨heldAfter, readings.otherSwapInFlight, row.entryTransactionSignature, entryTime,
        readings.decimals⟩
    let row := row.applyEntryFill fill
    let record := row.entryTransactionSignature.map fun signature => BookingRecord.entry {
      positionId := positionId
      timestamp := entryTime
      amount := fill.tokenAmount
      price := fill.effectiveEntryPrice
      nativeSpent := fill.nativeSize
      transactionSignature := signature
      isDca := false
      feesRaw := some fill.feeRaw }
    if closed then
      let recorded ← closingSaleRecorded positionId row
      let (row, late) ← lateFill positionId row reading afterWriteOff recorded
      let (row, late) ← bringBackReopened row late
      return .write row record (some late)
    else return .write row record none

def bookExitVerified (positionId : ℤ) (fill : CloseFill) (exitSignature : String)
    (exitAmount : ℕ) (heldAfter : Option ℕ) (readings : Readings) (row : Position) :
    Tx (Booking (Option LateFill)) := do
  let record := BookingRecord.exit {
    positionId := positionId
    timestamp := fill.exitTime
    amount := exitAmount
    price := fill.effectiveExitPrice
    nativeReceived := fill.nativeReceived
    transactionSignature := exitSignature
    isPartial := false
    percentage := 100
    feesRaw := some fill.feeRaw }
  let reading : LateFillReading :=
    ⟨heldAfter, readings.otherSwapInFlight, some exitSignature, fill.exitTime, readings.decimals⟩
  if ← read (·.exitRecordExists positionId exitSignature) then return .skip none
  else if row.isClosed then
    if closeHoldsSale row exitSignature fill.exitTime then return .skip none
    else
      let afterWriteOff := row.syntheticExit
      let earlierSaleRecorded ← closingSaleRecorded positionId row
      let row := row.bookLateClose fill
      let row := if afterWriteOff then
        { row with exitTransactionSignature := some exitSignature } else row
      let (row, late) ← lateFill positionId row reading afterWriteOff true
      let row := if earlierSaleRecorded ∧ late.follow = .reopened then
        { row with partialExitCount := row.partialExitCount + 1 } else row
      return .write row (some record) (some late)
  else if row.transactionExitVerified then return .skip none
  else
    let row := { row with
      exitTransactionSignature := row.exitTransactionSignature.or (some exitSignature) }
    let row ← lift (if readings.ownAddPending then .ok row else absorbUnbookedSale row exitAmount)
    let row ← lift (row.bookClose fill)
    return .write row (some record) none

def bookPartialExitVerified (positionId : ℤ) (exitAmount : ℕ)
    (nativeReceived effectiveExitPrice : ℚ) (feeRaw : ℕ) (exitTime : ℤ) (exitSignature : String)
    (exitPercentage : ℚ) (heldAfter : Option ℕ) (readings : Readings) (row : Position) :
    Tx (Booking (Option LateFill)) := do
  let record := BookingRecord.exit {
    positionId := positionId
    timestamp := exitTime
    amount := exitAmount
    price := effectiveExitPrice
    nativeReceived := nativeReceived
    transactionSignature := exitSignature
    isPartial := true
    percentage := exitPercentage
    feesRaw := some feeRaw }
  let reading : LateFillReading :=
    ⟨heldAfter, readings.otherSwapInFlight, some exitSignature, exitTime, readings.decimals⟩
  if ← read (·.exitRecordExists positionId exitSignature) then return .skip none
  else if row.isClosed then
    if ledgerCloseCounts row exitTime then return .skip none
    else
      let afterWriteOff := row.syntheticExit
      let row := row.bookLatePartialExit nativeReceived feeRaw
      let recorded ← closingSaleRecorded positionId row
      let (row, late) ← lateFill positionId row reading afterWriteOff recorded
      return .write row (some record) (some late)
  else
    let row ← lift (row.bookPartialExit
      ⟨exitAmount, nativeReceived, effectiveExitPrice, readings.mark, feeRaw⟩)
    return .write row (some record) none

def bookDcaVerified (positionId : ℤ) (fill : DcaFill) (effectivePrice : ℚ) (dcaSignature : String)
    (heldAfter : Option ℕ) (readings : Readings) (row : Position) :
    Tx (Booking (Option LateFill)) := do
  let reading : LateFillReading :=
    ⟨heldAfter, readings.otherSwapInFlight, some dcaSignature, fill.dcaTime, readings.decimals⟩
  let record (kept : KeptLeg) : Option BookingRecord :=
    if 0 < kept.leg.tokens then some (.entry {
      positionId := positionId
      timestamp := fill.dcaTime
      amount := kept.leg.tokens
      price := effectivePrice
      nativeSpent := kept.leg.costNative
      transactionSignature := dcaSignature
      isDca := true
      feesRaw := some kept.feeRaw })
    else none
  if ← read (·.entryRecordedForMint row.mint dcaSignature) then return .skip none
  else if row.isClosed then
    let (row, late, kept) ← lateDca positionId row reading row.syntheticExit fill effectivePrice
    let (row, late) ← bringBackReopened row late
    let row := if late.follow = .reopened then blendBooked row kept readings.decimals else row
    return .write row (record kept) (some late)
  else
    let row ← lift (row.bookDca fill)
    let may ← if row.archived then mayUnarchive row.mint positionId else pure false
    let row := bringBack may row
    let whole : KeptLeg := ⟨⟨fill.tokensBought, fill.nativeSpent⟩, fill.feeRaw⟩
    return .write (blendBooked row whole readings.decimals) (record whole) none

end Tx

/-- What the clear of a close's exit did. -/
inductive ExitClear where
  | cleared
  | writtenOffSaleDropped
  | exitVerified
  | otherExit (signature : String)
  deriving DecidableEq, Repr

namespace Position

def dropFailedWrittenOffSale (p : Position) : Position :=
  { p with exitTransactionSignature := none }

def clearFailedExit (p : Position) : Position :=
  { p with
    exitTransactionSignature := none
    transactionExitVerified := false
    closedReason := some exitRetryPending
    exitStrategyId := none
    exitPrice := none
    effectiveExitPrice := none }

end Position

/-- The booking closure of `clear_exit_for_retry`. It clears no exit but `exitSignature`, and none
that is verified. -/
def Tx.clearExitForRetry (exitSignature : String) (row : Position) : Tx (Tx.Booking ExitClear) :=
  if row.transactionExitVerified then
    if row.syntheticExit && row.exitTransactionSignature == some exitSignature then
      return .write row.dropFailedWrittenOffSale none .writtenOffSaleDropped
    else return .skip .exitVerified
  else match row.exitTransactionSignature.filter (· != exitSignature) with
    | some other => return .skip (.otherExit other)
    | none => return .write row.clearFailedExit none .cleared

def Transition.bookStatements (readings : Readings) :
    Transition → Position → Tx (Tx.Booking (Option LateFill))
  | entryVerified positionId fill heldAfter =>
    Tx.bookEntryVerified positionId fill heldAfter readings
  | exitVerified positionId fill exitSignature exitAmount heldAfter =>
    Tx.bookExitVerified positionId fill exitSignature exitAmount heldAfter readings
  | partialExitVerified positionId exitAmount nativeReceived effectiveExitPrice feeRaw exitTime
      exitSignature exitPercentage heldAfter =>
    Tx.bookPartialExitVerified positionId exitAmount nativeReceived effectiveExitPrice feeRaw
      exitTime exitSignature exitPercentage heldAfter readings
  | dcaVerified positionId fill effectivePrice dcaSignature heldAfter =>
    Tx.bookDcaVerified positionId fill effectivePrice dcaSignature heldAfter readings

abbrev Memory := List Position

def Memory.updateById (positionId : ℤ) (updater : Position → Position) : Memory → Memory
  | [] => []
  | live :: memory =>
    if live.id = some positionId then updater live :: memory
    else live :: updateById positionId updater memory

/-- Makes a position in memory the committed row; the columns that others write keep their
values. -/
def adoptCommitted (committed live : Position) : Position :=
  { committed with
    basisPeakPrice := if committed.basisPeakRestarted then committed.basisPeakPrice
      else live.basisPeakPrice
    basisPeakRestarted := false
    archived := live.archived
    archivedAt := live.archivedAt
    management := live.management
    origin := live.origin }

/-- Publishes a committed row to the position of its id in memory. -/
def Memory.publishCommitted (memory : Memory) (committed : Position) : Memory :=
  match committed.id with
  | some positionId => memory.updateById positionId (adoptCommitted committed)
  | none => memory

/-- What memory adopts of a booking that ended without an error. -/
def Memory.adopt {τ : Type} (memory : Memory) (positionId : ℤ) : Tx.Committed τ → Memory
  | .written row _ => memory.publishCommitted row
  | .deleted _ _ => memory.filter (·.id != some positionId)
  | .skipped _ => memory

/-- Books onto the stored row of `positionId` and publishes the committed row to memory, or drops a
deleted one from it. -/
def bookPosition {κ τ : Type} (c : Connection κ Store StoreError) (positionId : ℤ)
    (book : Position → Tx (Tx.Booking τ)) (k : κ) (memory : Memory) :
    Except StoreError (Tx.Committed τ) × κ × Memory :=
  match c.transact (Tx.runBooking positionId book) k with
  | (.error error, k) => (.error error, k, memory)
  | (.ok committed, k) => (.ok committed, k, memory.adopt positionId committed)

/-- A verified close whose sale left a residual. -/
structure ExitResidual where
  positionId : ℤ
  exitAmount : ℕ
  nativeReceived : ℚ
  effectiveExitPrice : ℚ
  feeRaw : ℕ
  exitTime : ℤ
  exitSignature : String
  exitPercentage : ℚ
  heldAfter : Option ℕ
  deriving DecidableEq, Repr

def ExitResidual.sale (r : ExitResidual) : Transition :=
  .partialExitVerified r.positionId r.exitAmount r.nativeReceived r.effectiveExitPrice r.feeRaw
    r.exitTime r.exitSignature r.exitPercentage r.heldAfter

/-- `ExitResidualClearForRetry`: the sale is booked as a partial exit, and then, while the position
is in memory, its exit is cleared, each in a booking of its own. -/
def bookExitResidual {κ : Type} (c : Connection κ Store StoreError) (r : ExitResidual)
    (readings : Readings) (k : κ) (memory : Memory) :
    Except StoreError (Option (Tx.Committed ExitClear)) × κ × Memory :=
  match bookPosition c r.positionId (r.sale.bookStatements readings) k memory with
  | (.error error, k, memory) => (.error error, k, memory)
  | (.ok _, k, memory) =>
    if memory.any (·.id == some r.positionId) then
      match bookPosition c r.positionId (Tx.clearExitForRetry r.exitSignature) k memory with
      | (.error error, k, memory) => (.error error, k, memory)
      | (.ok cleared, k, memory) => (.ok (some cleared), k, memory)
    else (.ok none, k, memory)

end ScreenerBot.Positions
