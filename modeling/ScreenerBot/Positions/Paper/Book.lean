import ScreenerBot.Positions.Store
import ScreenerBot.Trader.PaperFill

/-! The paper book of one wallet: its stored rounds, the open ones in memory, and each fill booked
with the live booking math in one transaction. Times are in nanoseconds, and native amounts are
finite `f64` values. Paper fills are booked onto it, and a round is closed at its mark. -/
namespace ScreenerBot.Positions
open Library Trader

/-- What a round is opened from. -/
structure Opening where
  mint : String
  symbol : String
  name : String
  entryPrice : ℚ
  entryTime : ℤ
  sizeNative : ℚ
  entrySignature : Option String
  origin : PositionOrigin
  management : PositionManagement
  deriving DecidableEq, Repr

/-- A new open round at its entry price, unverified, with nothing booked onto it. -/
def Position.opening (opening : Opening) : Position where
  id := none
  mint := opening.mint
  symbol := opening.symbol
  name := opening.name
  entryPrice := opening.entryPrice
  entryTime := opening.entryTime
  exitPrice := none
  exitTime := none
  entrySizeNative := opening.sizeNative
  totalSizeNative := opening.sizeNative
  basisPeakPrice := opening.entryPrice
  basisPeakRestarted := false
  entryTransactionSignature := opening.entrySignature
  exitTransactionSignature := none
  tokenAmount := none
  effectiveEntryPrice := none
  effectiveExitPrice := none
  nativeReceived := none
  transactionEntryVerified := false
  transactionExitVerified := false
  entryFeeRaw := none
  exitFeeRaw := none
  syntheticExit := false
  closedReason := none
  exitStrategyId := none
  pnl := none
  pnlPercent := none
  unrealizedPnl := none
  unrealizedPnlPercent := none
  remainingTokenAmount := none
  totalExitedAmount := 0
  averageExitPrice := none
  partialExitCount := 0
  dcaCount := 0
  averageEntryPrice := opening.entryPrice
  lastDcaTime := none
  archived := false
  archivedAt := none
  origin := opening.origin
  management := opening.management
  roundKey := none
  basisComplete := true
  historyComplete := true
  holdingState := none

namespace Paper

/-- A paper round: its row and the take-profit steps it took. -/
structure PaperRound where
  row : Position
  takeProfitLevel : ℕ
  deriving DecidableEq, Repr

def PaperRound.isOpen (round : PaperRound) : Bool := round.row.exitTime.isNone

inductive PaperLegKind where
  | entry | dca | partialExit | exit
  deriving DecidableEq, Repr

inductive PaperLegFill where
  | buy (fill : PaperFill)
  | sell (fill : PaperSellFill)
  deriving DecidableEq, Repr

/-- One simulated fill, with the reference its entry or exit record is booked under. -/
structure PaperLeg where
  legRef : String
  strategyId : Option String
  time : ℤ
  quote : PaperLegFill
  deriving DecidableEq, Repr

/-- The reference of the leg booked under the caller's `key`. -/
def PaperLeg.reference (key : String) : String := "paper-" ++ key

def PaperLeg.buy (fill : PaperFill) (strategyId : Option String) (time : ℤ) (key : String) :
    PaperLeg :=
  ⟨reference key, strategyId, time, .buy fill⟩

def PaperLeg.sell (fill : PaperSellFill) (strategyId : Option String) (time : ℤ) (key : String) :
    PaperLeg :=
  ⟨reference key, strategyId, time, .sell fill⟩

structure PaperLegRecord where
  positionId : ℤ
  kind : PaperLegKind
  leg : PaperLeg
  deriving DecidableEq, Repr

structure PaperEpoch where
  epoch : ℤ
  startingBalanceNative : ℚ
  startedAt : ℤ
  deriving DecidableEq, Repr

/-- What a new paper round must fit within. `epoch` is the paper run the buy was priced in. -/
structure PaperOpenTerms where
  maxOpen : ℕ
  openCooldownSecs : ℕ
  epoch : ℤ
  deriving DecidableEq, Repr

/-- Why a paper booking was refused. Nothing is written then. -/
inductive PaperError where
  | slotUnavailable (remaining : ℕ)
  | openCooldown (waitSecs : ℕ)
  | runEnded (mint : String)
  | cashShort (mint : String) (cashNative neededNative : ℚ)
  | alreadyOpen (mint : String) (openPositionId : ℤ)
  | fillUnbookable (mint detail : String)
  | invalidPrice (mint : String) (price : ℚ)
  /-- The store holds each leg reference once. -/
  | legStored (legRef : String)
  | refused (error : BookingError)
  deriving DecidableEq, Repr

def PaperError.lift {α : Type} (x : Except BookingError α) : Except PaperError α :=
  x.mapError .refused

/-- Why a booking wrote nothing. -/
inductive Skipped where
  | closed | alreadyBooked | stepTaken
  deriving DecidableEq, Repr

inductive PaperDecision where
  | write (round : PaperRound) (record : BookingRecord)
  | skip (why : Skipped)

inductive PaperCommitted where
  | written (round : PaperRound)
  | skipped (why : Skipped)

inductive PaperBooked where
  | booked (round : PaperRound)
  | alreadyClosed
  | alreadyBooked
  | stepTaken
  deriving DecidableEq, Repr

inductive PaperOpened where
  | opened (round : PaperRound)
  | alreadyBooked (round : PaperRound)
  deriving DecidableEq, Repr

/-- The stored rounds of the wallet with their records, legs and runs, the newest run first. -/
structure PaperStore where
  rounds : AList fun _ : ℤ => PaperRound
  nextId : ℤ
  entries : List EntryRecord
  exits : List ExitRecord
  legs : List PaperLegRecord
  epochs : List PaperEpoch
  deriving DecidableEq

inductive PaperRoundInsert where
  | inserted (round : PaperRound) (db : PaperStore)
  | alreadyBooked (positionId : ℤ)

namespace PaperStore

def paperLeg (db : PaperStore) (legRef : String) : Option PaperLegRecord :=
  db.legs.find? (·.leg.legRef == legRef)

def entryRecordExists (db : PaperStore) (positionId : ℤ) (signature : String) : Bool :=
  db.entries.any fun r => r.positionId == positionId && r.transactionSignature == signature

def exitRecordExists (db : PaperStore) (positionId : ℤ) (signature : String) : Bool :=
  db.exits.any fun r => r.positionId == positionId && r.transactionSignature == signature

def insertRecord (db : PaperStore) : BookingRecord → PaperStore
  | .entry r =>
    if db.entryRecordExists r.positionId r.transactionSignature then db
    else { db with entries := db.entries ++ [r] }
  | .exit r =>
    if db.exitRecordExists r.positionId r.transactionSignature then db
    else { db with exits := db.exits ++ [r] }

def openRoundId (db : PaperStore) (mint : String) : Option ℤ :=
  (db.rounds.entries.find? fun e => e.2.isOpen && e.2.row.mint == mint).map (·.1)

/-- Opens a paper round in one transaction: its row, its entry record and its entry leg. A leg
reference already stored writes nothing. -/
def insertPaperRound (db : PaperStore) (position : Position) (entry : EntryRecord)
    (leg : PaperLeg) :
    Except PaperError PaperRoundInsert :=
  match db.paperLeg leg.legRef with
  | some stored => .ok (.alreadyBooked stored.positionId)
  | none =>
    match db.openRoundId position.mint with
    | some openPositionId => .error (.alreadyOpen position.mint openPositionId)
    | none =>
      let round : PaperRound := ⟨{ position with id := some db.nextId }, 0⟩
      let written := { db with
        rounds := db.rounds.insert db.nextId round
        nextId := db.nextId + 1 }
      let recorded := written.insertRecord (.entry { entry with positionId := db.nextId })
      .ok (.inserted round { recorded with legs := recorded.legs ++ [⟨db.nextId, .entry, leg⟩] })

/-- Books a paper fill onto a stored round and writes its leg in the same transaction. -/
def commitPaperBooking (db : PaperStore) (positionId : ℤ) (kind : PaperLegKind) (leg : PaperLeg)
    (book : PaperRound → Except PaperError PaperDecision) :
    Except PaperError (PaperCommitted × PaperStore) :=
  match db.rounds.lookup positionId with
  | none => .error (.refused (.notFoundById positionId))
  | some old => do
    match ← book old with
    | .skip why => return (.skipped why, db)
    | .write round record =>
      if (db.paperLeg leg.legRef).isSome then throw (.legStored leg.legRef)
      let stored := { round with row := Store.stored old.row round.row }
      let written := { db with rounds := db.rounds.insert positionId stored }
      let recorded := written.insertRecord record
      return (.written round, { recorded with legs := recorded.legs ++ [⟨positionId, kind, leg⟩] })

def positionsEnteredSince (db : PaperStore) (since : ℤ) : List Position :=
  (db.rounds.entries.map (·.2.row)).filter fun row => decide (since ≤ row.entryTime)

def currentPaperEpoch (db : PaperStore) : Option PaperEpoch := db.epochs.head?

/-- Starts the next paper epoch, numbered one above the latest. -/
def startPaperEpoch (db : PaperStore) (startingBalanceNative : ℚ) (startedAt : ℤ) : PaperStore :=
  { db with epochs :=
      ⟨(db.epochs.head?.map (·.epoch)).getD 0 + 1, startingBalanceNative, startedAt⟩ :: db.epochs }

end PaperStore

/-- The paper book: its store, its open rounds in memory and when the latest round opened. -/
structure PaperBook where
  db : PaperStore
  opened : List PaperRound
  lastOpen : Option ℤ
  deriving DecidableEq

/-- The paper account in its current epoch. -/
structure PaperAccount where
  epoch : ℤ
  startingBalanceNative : ℚ
  startedAt : ℤ
  cashNative : ℚ
  deriving DecidableEq, Repr

/-- The cash of a paper run: every position of the run has paid its buys and fees and received its
sales. -/
def paperCash (startingBalanceNative : ℚ) (positions : List Position) : ℚ :=
  positions.foldl (fun cash position =>
    let received := Binary64.add cash (position.nativeReceived.getD 0)
    Binary64.sub (Binary64.sub received position.totalSizeNative) position.totalFees)
    startingBalanceNative

/-- `f64::EPSILON`. -/
def f64Epsilon : ℚ := 1 / 2 ^ 52

/-- The adapter's `native_to_raw`: the nearest raw amount, within `u64`. -/
def nativeToRaw (native : ℚ) : ℕ :=
  min (round (Binary64.mul native lamportsPerSol)).toNat u64Max

/-- Seconds left of the cooldown after the latest open. -/
def openCooldownWaitSecs (lastOpen : Option ℤ) (now : ℤ) (cooldownSecs : ℕ) : Option ℕ :=
  lastOpen.bind fun lastOpen =>
    let elapsed := ((now - lastOpen) / 1000000000).toNat
    if elapsed < cooldownSecs then some (cooldownSecs - elapsed) else none

namespace PaperBook

def position (book : PaperBook) (positionId : ℤ) : Option PaperRound :=
  book.opened.find? (·.row.id == some positionId)

def accountIn (book : PaperBook) (epoch : PaperEpoch) : PaperAccount :=
  ⟨epoch.epoch, epoch.startingBalanceNative, epoch.startedAt,
    paperCash epoch.startingBalanceNative (book.db.positionsEnteredSince epoch.startedAt)⟩

/-- The account of the current run, whose first epoch starts when there is none. -/
def account (book : PaperBook) (startingBalanceNative : ℚ) (now : ℤ) : PaperBook :=
  match book.db.currentPaperEpoch with
  | some _ => book
  | none => { book with db := book.db.startPaperEpoch startingBalanceNative now }

/-- The account of the current paper run when its cash covers a buy costing `neededNative`. -/
def coveringAccount (book : PaperBook) (mint : String) (neededNative : ℚ) (pricedIn : Option ℤ) :
    Except PaperError PaperAccount :=
  match book.db.currentPaperEpoch with
  | none => .error (.runEnded mint)
  | some epoch =>
    if pricedIn.any (· != epoch.epoch) then .error (.runEnded mint)
    else
      let account := book.accountIn epoch
      if Binary64.add account.cashNative f64Epsilon < neededNative then
        .error (.cashShort mint account.cashNative neededNative)
      else .ok account

/-- The round an already booked entry leg opened, as stored. -/
def bookedRound (book : PaperBook) (positionId : ℤ) : Except PaperError PaperOpened :=
  match book.db.rounds.lookup positionId with
  | some round => .ok (.alreadyBooked round)
  | none => .error (.refused (.notFoundById positionId))

/-- What `openRound` finds under the capacity lock before it writes: the round an already booked leg
opened, or the account the buy spends from. -/
def checkOpen (book : PaperBook) (mint : String) (fill : EntryFill) (leg : PaperLeg)
    (terms : PaperOpenTerms) (now : ℤ) : Except PaperError (PaperOpened ⊕ PaperAccount) :=
  match book.db.paperLeg leg.legRef with
  | some stored => do
    let found ← book.bookedRound stored.positionId
    return .inl found
  | none => do
    if terms.maxOpen ≤ book.opened.length then throw (.slotUnavailable 0)
    match openCooldownWaitSecs book.lastOpen now terms.openCooldownSecs with
    | some waitSecs => throw (.openCooldown waitSecs)
    | none =>
      let needed := Binary64.add fill.nativeSize (Rounded.rawToNative fill.feeRaw)
      let account ← book.coveringAccount mint needed (some terms.epoch)
      return .inr account

/-- Writes the round `openRound` opens, with its entry `fill` booked. -/
def writeOpen (book : PaperBook) (opening : Opening) (fill : EntryFill) (leg : PaperLeg) (now : ℤ) :
    Except PaperError (PaperOpened × PaperBook) := do
  let row := (Position.opening { opening with entrySignature := none }).applyEntryFill fill
  let entry : EntryRecord := {
    positionId := 0
    timestamp := leg.time
    amount := fill.tokenAmount
    price := fill.effectiveEntryPrice
    nativeSpent := fill.nativeSize
    transactionSignature := leg.legRef
    isDca := false
    feesRaw := some fill.feeRaw }
  match ← book.db.insertPaperRound row entry leg with
  | .alreadyBooked positionId =>
    let found ← book.bookedRound positionId
    return (found, book)
  | .inserted round db => return (.opened round, ⟨db, book.opened ++ [round], some now⟩)

def openRound (book : PaperBook) (opening : Opening) (fill : EntryFill) (leg : PaperLeg)
    (terms : PaperOpenTerms) (now : ℤ) : Except PaperError (PaperOpened × PaperBook) := do
  match ← book.checkOpen opening.mint fill leg terms now with
  | .inl found => return (found, book)
  | .inr _ => book.writeOpen opening fill leg now

/-- Brings memory to a committed booking: an open row replaces its round and a closed row leaves the
open rounds. -/
def adopt (book : PaperBook) (positionId : ℤ) : PaperCommitted → PaperBooked × PaperBook
  | .skipped .closed =>
    (.alreadyClosed, { book with opened := book.opened.filter (·.row.id != some positionId) })
  | .skipped .alreadyBooked => (.alreadyBooked, book)
  | .skipped .stepTaken => (.stepTaken, book)
  | .written round =>
    let round := { round with row := { round.row with basisPeakRestarted := false } }
    let opened :=
      if !round.isOpen then book.opened.eraseP (·.row.id == round.row.id)
      else if book.opened.any (·.row.id == round.row.id) then
        book.opened.replaceF fun live => if live.row.id == round.row.id then some round else none
      else book.opened ++ [round]
    (.booked round, { book with opened := opened })

def commit (book : PaperBook) (positionId : ℤ) (kind : PaperLegKind) (leg : PaperLeg)
    (decision : PaperRound → Except PaperError PaperDecision) :
    Except PaperError (PaperBooked × PaperBook) := do
  let (committed, db) ← book.db.commitPaperBooking positionId kind leg decision
  return { book with db := db }.adopt positionId committed

/-- What `dca` finds under the capacity lock before it writes: the account the add spends from, when
the round is open in memory. -/
def checkDca (book : PaperBook) (positionId : ℤ) (fill : DcaFill) :
    Except PaperError (Option PaperAccount) :=
  match book.position positionId with
  | none => .ok none
  | some position => do
    let needed := Binary64.add fill.nativeSpent (Rounded.rawToNative fill.feeRaw)
    let account ← book.coveringAccount position.row.mint needed none
    return some account

def writeDca (book : PaperBook) (positionId : ℤ) (fill : DcaFill) (fillPrice : ℚ) (decimals : ℕ)
    (leg : PaperLeg) : Except PaperError (PaperBooked × PaperBook) :=
  book.commit positionId .dca leg fun round =>
    if !round.isOpen then .ok (.skip .closed)
    else if book.db.entryRecordExists positionId leg.legRef then .ok (.skip .alreadyBooked)
    else do
      let row ← PaperError.lift (round.row.bookDca fill)
      let row := row.blendAverageEntryPrice fill.tokensBought fill.nativeSpent decimals
      return .write { round with row := row } (.entry {
        positionId := positionId
        timestamp := fill.dcaTime
        amount := fill.tokensBought
        price := fillPrice
        nativeSpent := fill.nativeSpent
        transactionSignature := leg.legRef
        isDca := true
        feesRaw := some fill.feeRaw })

def dca (book : PaperBook) (positionId : ℤ) (fill : DcaFill) (fillPrice : ℚ) (decimals : ℕ)
    (leg : PaperLeg) : Except PaperError (PaperBooked × PaperBook) := do
  let _ ← book.checkDca positionId fill
  book.writeDca positionId fill fillPrice decimals leg

/-- Books a paper partial exit, taking take-profit step `takeProfitLevel` when the sale is one. A
step that is not the round's next one is refused. -/
def partialExit (book : PaperBook) (positionId : ℤ) (fill : PartialExitFill) (percentage : ℚ)
    (takeProfitLevel : Option ℕ) (leg : PaperLeg) : Except PaperError (PaperBooked × PaperBook) :=
  book.commit positionId .partialExit leg fun round =>
    if !round.isOpen then .ok (.skip .closed)
    else if book.db.exitRecordExists positionId leg.legRef then .ok (.skip .alreadyBooked)
    else if takeProfitLevel.any (fun level => level == 0 || level - 1 != round.takeProfitLevel) then
      .ok (.skip .stepTaken)
    else do
      let row ← PaperError.lift (round.row.bookPartialExit fill)
      return .write { round with
          row := row
          takeProfitLevel := takeProfitLevel.getD round.takeProfitLevel } (.exit {
        positionId := positionId
        timestamp := leg.time
        amount := fill.exitAmount
        price := fill.effectiveExitPrice
        nativeReceived := fill.nativeReceived
        transactionSignature := leg.legRef
        isPartial := true
        percentage := percentage
        feesRaw := some fill.feeRaw })

/-- Closes `positionId` with the paper sale `fill`. The close sells whatever the round has left. -/
def close (book : PaperBook) (positionId : ℤ) (fill : CloseFill) (exitPrice : ℚ) (reason : String)
    (leg : PaperLeg) : Except PaperError (PaperBooked × PaperBook) :=
  book.commit positionId .exit leg fun round =>
    if !round.isOpen then .ok (.skip .closed)
    else if book.db.exitRecordExists positionId leg.legRef then .ok (.skip .alreadyBooked)
    else do
      let sold := round.row.remainingTokenAmount.getD 0
      let row ← PaperError.lift (Position.bookClose
        { round.row with exitPrice := some exitPrice, closedReason := some reason } fill)
      return .write { round with row := row } (.exit {
        positionId := positionId
        timestamp := fill.exitTime
        amount := sold
        price := fill.effectiveExitPrice
        nativeReceived := fill.nativeReceived
        transactionSignature := leg.legRef
        isPartial := false
        percentage := 100
        feesRaw := some fill.feeRaw })

end PaperBook


/-- How a paper sale leaves its round. -/
inductive PaperSale where
  | partialExit (percentage : ℚ) (takeProfitLevel : Option ℕ)
  | full (exitPrice : ℚ) (reason : String)
  deriving DecidableEq, Repr

/-- The raw token amount a quote-settled fill moved and the token's decimals, from the quote
evidence the fill carries. -/
def quotedAmount (mint : String) (quote : Option PaperQuoteMetadata) (sold : Bool) :
    Except PaperError (ℕ × ℕ) :=
  match quote with
  | none => .error (.fillUnbookable mint "the fill carries no quote evidence")
  | some quote =>
    match quote.tokenDecimals with
    | none => .error (.fillUnbookable mint "the quote evidence carries no token decimals")
    | some decimals =>
      match if sold then quote.inputAmount else some quote.finalOutputAmount with
      | none => .error (.fillUnbookable mint "the quote evidence carries no sold amount")
      | some amount =>
        if amount = 0 then .error (.fillUnbookable mint "the fill moved no tokens")
        else .ok (amount, decimals)

def entryFill (mint : String) (fill : PaperFill) : Except PaperError EntryFill := do
  let (tokenAmount, _) ← quotedAmount mint fill.quote false
  return ⟨fill.fillPriceSol, tokenAmount, nativeToRaw fill.networkFeeSol, fill.inputSol⟩

/-- The add a quote-settled buy books, and the token's decimals. -/
def dcaFill (mint : String) (fill : PaperFill) (leg : PaperLeg) :
    Except PaperError (DcaFill × ℕ) := do
  let (tokensBought, decimals) ← quotedAmount mint fill.quote false
  return (⟨tokensBought, fill.inputSol, nativeToRaw fill.networkFeeSol, leg.time⟩, decimals)

/-- The last mark of a round, its average entry price before the first one. -/
def PaperRound.lastMark (round : PaperRound) (currentPrice : Option ℚ) : ℚ :=
  (currentPrice.filter fun price => decide (0 < price)).getD round.row.averageEntryPrice

namespace PaperBook

def bookBuy (book : PaperBook) (opening : Opening) (fill : PaperFill) (leg : PaperLeg)
    (terms : PaperOpenTerms) (now : ℤ) : Except PaperError (PaperOpened × PaperBook) := do
  let entry ← entryFill opening.mint fill
  book.openRound opening entry leg terms now

def bookAdd (book : PaperBook) (positionId : ℤ) (mint : String) (fill : PaperFill)
    (leg : PaperLeg) :
    Except PaperError (PaperBooked × PaperBook) := do
  let (add, decimals) ← dcaFill mint fill leg
  book.dca positionId add fill.fillPriceSol decimals leg

/-- Books the quote-settled sale `fill` onto the open round `positionId`, as a partial exit or as
the close of the round. -/
def bookSale (book : PaperBook) (positionId : ℤ) (mint : String) (fill : PaperSellFill)
    (sale : PaperSale) (leg : PaperLeg) : Except PaperError (PaperBooked × PaperBook) := do
  let (sold, _) ← quotedAmount mint fill.quote true
  let feeRaw := nativeToRaw fill.networkFeeSol
  match sale with
  | .partialExit percentage takeProfitLevel =>
    book.partialExit positionId ⟨sold, fill.netProceedsSol, fill.fillPriceSol, none, feeRaw⟩
      percentage takeProfitLevel leg
  | .full exitPrice reason =>
    book.close positionId ⟨fill.fillPriceSol, fill.netProceedsSol, feeRaw, leg.time⟩
      exitPrice reason
      leg

/-- Closes the open round `round`, as it was read, at `mark`, with no quote and no fee. -/
def closeAtMark (book : PaperBook) (round : PaperRound) (mark : ℚ) (decimals : ℕ) (reason : String)
    (key : String) (now : ℤ) : Except PaperError (PaperBooked × PaperBook) :=
  match round.row.id with
  | none => .error (.fillUnbookable round.row.mint "the round has no id")
  | some positionId =>
    if mark ≤ 0 then .error (.invalidPrice round.row.mint mark)
    else
      let tokens := Rounded.toWholeUnits (round.row.heldAmount.getD 0) decimals
      let value := Binary64.mul tokens mark
      let sale : PaperSellFill := {
        tokenAmount := tokens
        marketPriceSol := mark
        pricedFromPool := true
        fillPriceSol := mark
        grossSol := value
        referralFeeSol := 0
        networkFeeSol := 0
        priorityFeeSol := 0
        netProceedsSol := value
        model := .mark
        quote := none }
      book.close positionId ⟨mark, value, 0, now⟩ mark reason (.sell sale none now key)

/-- Closes the open round `round`, as it was read, at its last mark. -/
def settleRound (book : PaperBook) (round : PaperRound) (currentPrice : Option ℚ)
    (decimalsOf : String → Option ℕ) (reason key : String) (now : ℤ) :
    Except PaperError (PaperBooked × PaperBook) :=
  match decimalsOf round.row.mint with
  | none => .error (.fillUnbookable round.row.mint "the token decimals are unknown")
  | some decimals =>
    book.closeAtMark round (round.lastMark currentPrice) decimals reason key now

end PaperBook

end Paper

end ScreenerBot.Positions
