import ScreenerBot.Library.Fallible
import ScreenerBot.Positions.Handover
import ScreenerBot.Positions.Paper.Executor

/-! What one booking makes of the paper book. -/
namespace ScreenerBot.Positions
open Library Trader

namespace Position

variable {p q : Position}

theorem bookExit_ok {sold : ℕ} (h : p.bookExit sold = .ok q) :
    p.totalExitedAmount + sold ≤ u128Max ∧
      q = { p with
        remainingTokenAmount := p.remainingTokenAmount.map (· - sold)
        totalExitedAmount := p.totalExitedAmount + sold } := by
  unfold bookExit at h
  split at h
  · cases h
  next exited hexited =>
    obtain ⟨rfl, hfits⟩ := checkedRaw_eq_some.mp hexited
    cases h
    exact ⟨hfits, rfl⟩

theorem bookRemainingAsExited_ok (h : p.bookRemainingAsExited = .ok q) :
    (p.remainingTokenAmount = none ∨
        p.totalExitedAmount + p.remainingTokenAmount.getD 0 ≤ u128Max) ∧
      q = { p with
        remainingTokenAmount := p.remainingTokenAmount.map fun _ => 0
        totalExitedAmount := p.totalExitedAmount + p.remainingTokenAmount.getD 0 } := by
  unfold bookRemainingAsExited at h
  cases hr : p.remainingTokenAmount with
  | none =>
    rw [hr] at h
    cases h
    refine ⟨.inl rfl, ?_⟩
    cases p
    cases hr
    rfl
  | some remaining =>
    rw [hr] at h
    dsimp only at h
    split at h
    · cases h
    next exited hexited =>
      obtain ⟨rfl, hfits⟩ := checkedRaw_eq_some.mp hexited
      cases h
      exact ⟨.inr hfits, rfl⟩

/-- Blending a buy into the average moves the average and the peak only. -/
theorem blendAverageEntryPrice_moves (p : Position) (bought : ℕ) (spent : ℚ) (decimals : ℕ) :
    ∃ average peak restarted, p.blendAverageEntryPrice bought spent decimals =
      { p with
        averageEntryPrice := average
        basisPeakPrice := peak
        basisPeakRestarted := restarted } := by
  unfold blendAverageEntryPrice
  dsimp only
  split
  · exact ⟨_, _, _, rfl⟩
  · split
    · unfold moveAverageEntryPrice
      split
      · exact ⟨_, _, _, rfl⟩
      · exact ⟨_, _, _, rfl⟩
    · exact ⟨_, _, _, rfl⟩

end Position

namespace Paper

/-- A fill booked onto an open round. -/
inductive RowBooking where
  | dca (fill : DcaFill) (fillPrice : ℚ) (decimals : ℕ)
  | partialExit (fill : PartialExitFill) (percentage : ℚ) (takeProfitLevel : Option ℕ)
  | close (fill : CloseFill) (exitPrice : ℚ) (reason : String)
  deriving DecidableEq, Repr

namespace RowBooking

def kind : RowBooking → PaperLegKind
  | dca .. => .dca
  | partialExit .. => .partialExit
  | close .. => .exit

/-- Whether the round is at the take-profit step before the one the booking takes. -/
def takesNextStep (old : PaperRound) : RowBooking → Bool
  | partialExit _ _ takeProfitLevel =>
    !takeProfitLevel.any fun level => level == 0 || level - 1 != old.takeProfitLevel
  | _ => true

/-- Whether the round already has the record the booking writes under `legRef`. -/
def recorded (db : PaperStore) (positionId : ℤ) (legRef : String) : RowBooking → Bool
  | dca .. => db.entryRecordExists positionId legRef
  | _ => db.exitRecordExists positionId legRef

/-- The round the booking leaves. -/
def round (old : PaperRound) : RowBooking → Except BookingError PaperRound
  | dca fill _ decimals => do
    let row ← old.row.bookDca fill
    return { old with
      row := row.blendAverageEntryPrice fill.tokensBought fill.nativeSpent decimals }
  | partialExit fill _ takeProfitLevel => do
    let row ← old.row.bookPartialExit fill
    return { row := row, takeProfitLevel := takeProfitLevel.getD old.takeProfitLevel }
  | close fill exitPrice reason => do
    let row ← Position.bookClose
      { old.row with exitPrice := some exitPrice, closedReason := some reason } fill
    return { old with row := row }

/-- The record the booking writes under `leg`. -/
def record (positionId : ℤ) (leg : PaperLeg) (old : PaperRound) : RowBooking → BookingRecord
  | dca fill fillPrice _ => .entry {
      positionId := positionId
      timestamp := fill.dcaTime
      amount := fill.tokensBought
      price := fillPrice
      nativeSpent := fill.nativeSpent
      transactionSignature := leg.legRef
      isDca := true
      feesRaw := some fill.feeRaw }
  | partialExit fill percentage _ => .exit {
      positionId := positionId
      timestamp := leg.time
      amount := fill.exitAmount
      price := fill.effectiveExitPrice
      nativeReceived := fill.nativeReceived
      transactionSignature := leg.legRef
      isPartial := true
      percentage := percentage
      feesRaw := some fill.feeRaw }
  | close fill _ _ => .exit {
      positionId := positionId
      timestamp := fill.exitTime
      amount := old.row.remainingTokenAmount.getD 0
      price := fill.effectiveExitPrice
      nativeReceived := fill.nativeReceived
      transactionSignature := leg.legRef
      isPartial := false
      percentage := 100
      feesRaw := some fill.feeRaw }

/-- The tokens the booking buys. -/
def bought : RowBooking → ℕ
  | dca fill _ _ => fill.tokensBought
  | _ => 0

/-- The tokens the booking sells: a close sells whatever the round has left. -/
def sold (old : PaperRound) : RowBooking → ℕ
  | dca .. => 0
  | partialExit fill _ _ => fill.exitAmount
  | close .. => old.row.remainingTokenAmount.getD 0

/-- A booked round is the round it was, with what it had left moved by the booking. -/
structure Moves (booking : RowBooking) (old round : PaperRound) : Prop where
  id : round.row.id = old.row.id
  entryTime : round.row.entryTime = old.row.entryTime
  left : round.row.remainingTokenAmount.getD 0 =
    old.row.remainingTokenAmount.getD 0 + booking.bought - booking.sold old

theorem round_moves {booking : RowBooking} {old round : PaperRound}
    (h : booking.round old = .ok round) : booking.Moves old round := by
  cases booking with
  | dca fill fillPrice decimals =>
    obtain ⟨row, hrow, hret⟩ := bind_eq_ok.mp h
    obtain ⟨held, hheld, hrow⟩ := bind_eq_ok.mp hrow
    obtain ⟨average, peak, restarted, hblend⟩ :=
      row.blendAverageEntryPrice_moves fill.tokensBought fill.nativeSpent decimals
    rw [hblend] at hret
    cases hret
    cases hrow
    rw [Position.bookAcquisition_ok hheld]
    exact ⟨rfl, rfl, rfl⟩
  | partialExit fill percentage takeProfitLevel =>
    obtain ⟨row, hrow, hret⟩ := bind_eq_ok.mp h
    obtain ⟨exited, hexited, hrow⟩ := bind_eq_ok.mp hrow
    cases hret
    cases hrow
    rw [(Position.bookExit_ok hexited).2]
    refine ⟨rfl, rfl, ?_⟩
    cases hr : old.row.remainingTokenAmount with
    | none => simp [bought]
    | some remaining => simp [bought, sold]
  | close fill exitPrice reason =>
    obtain ⟨row, hrow, hret⟩ := bind_eq_ok.mp h
    obtain ⟨exited, hexited, hrow⟩ := bind_eq_ok.mp hrow
    cases hret
    cases hrow
    rw [(Position.bookRemainingAsExited_ok hexited).2]
    refine ⟨rfl, rfl, ?_⟩
    cases hr : old.row.remainingTokenAmount with
    | none => simp [Position.restatePnl, hr, bought, sold]
    | some remaining => simp [Position.restatePnl, hr, bought, sold]

/-- A booking counts what it sells as exited within a raw amount. -/
theorem round_fits {booking : RowBooking} {old round : PaperRound}
    (h : booking.round old = .ok round) :
    booking.sold old = 0 ∨ old.row.totalExitedAmount + booking.sold old ≤ u128Max := by
  cases booking with
  | dca => exact .inl rfl
  | partialExit fill percentage takeProfitLevel =>
    obtain ⟨row, hrow, -⟩ := bind_eq_ok.mp h
    obtain ⟨exited, hexited, -⟩ := bind_eq_ok.mp hrow
    exact .inr (Position.bookExit_ok hexited).1
  | close fill exitPrice reason =>
    obtain ⟨row, hrow, -⟩ := bind_eq_ok.mp h
    obtain ⟨exited, hexited, -⟩ := bind_eq_ok.mp hrow
    rcases (Position.bookRemainingAsExited_ok hexited).1 with hnone | hfits
    · have hnone : old.row.remainingTokenAmount = none := hnone
      exact .inl (by rw [sold, hnone, Option.getD_none])
    · exact .inr hfits

/-- A close leaves the round closed. -/
theorem close_closed {fill : CloseFill} {exitPrice : ℚ} {reason : String} {old round : PaperRound}
    (h : (close fill exitPrice reason).round old = .ok round) : round.isOpen = false := by
  obtain ⟨row, hrow, hret⟩ := bind_eq_ok.mp h
  obtain ⟨exited, -, hrow⟩ := bind_eq_ok.mp hrow
  cases hret
  cases hrow
  rfl

end RowBooking

namespace PaperStore

variable {db : PaperStore} {record : BookingRecord}

@[simp] theorem insertRecord_rounds : (db.insertRecord record).rounds = db.rounds := by
  cases record <;> simp only [insertRecord] <;> split <;> rfl

@[simp] theorem insertRecord_nextId : (db.insertRecord record).nextId = db.nextId := by
  cases record <;> simp only [insertRecord] <;> split <;> rfl

@[simp] theorem insertRecord_legs : (db.insertRecord record).legs = db.legs := by
  cases record <;> simp only [insertRecord] <;> split <;> rfl

@[simp] theorem insertRecord_epochs : (db.insertRecord record).epochs = db.epochs := by
  cases record <;> simp only [insertRecord] <;> split <;> rfl

end PaperStore

/-- Writes a booked round, its record and its leg. -/
def PaperStore.booked (db : PaperStore) (positionId : ℤ) (old round : PaperRound)
    (record : BookingRecord) (kind : PaperLegKind) (leg : PaperLeg) : PaperStore :=
  let stored := { round with row := Store.stored old.row round.row }
  let recorded := { db with rounds := db.rounds.insert positionId stored }.insertRecord record
  { recorded with legs := recorded.legs ++ [⟨positionId, kind, leg⟩] }

/-- A new round's row before it has an id. -/
def openingRow (opening : Opening) (fill : EntryFill) : Position :=
  (Position.opening { opening with entrySignature := none }).applyEntryFill fill

/-- The entry record of a new round. -/
def openingEntry (positionId : ℤ) (fill : EntryFill) (leg : PaperLeg) : EntryRecord where
  positionId := positionId
  timestamp := leg.time
  amount := fill.tokenAmount
  price := fill.effectiveEntryPrice
  nativeSpent := fill.nativeSize
  transactionSignature := leg.legRef
  isDca := false
  feesRaw := some fill.feeRaw

/-- Writes a new round, its entry record and its leg. -/
def PaperStore.openedRound (db : PaperStore) (round : PaperRound) (entry : EntryRecord)
    (leg : PaperLeg) : PaperStore :=
  let written := { db with rounds := db.rounds.insert db.nextId round, nextId := db.nextId + 1 }
  let recorded := written.insertRecord (.entry entry)
  { recorded with legs := recorded.legs ++ [⟨db.nextId, .entry, leg⟩] }

/-- A skipped booking leaves the book, its record written before or its step taken, or takes a
closed round out of memory. -/
inductive Skips (book : PaperBook) (positionId : ℤ) (leg : PaperLeg) (booking : RowBooking) :
    PaperBooked → PaperBook → Prop where
  | alreadyBooked (h : booking.recorded book.db positionId leg.legRef = true) :
      Skips book positionId leg booking .alreadyBooked book
  | stepTaken (old : PaperRound) (h : booking.takesNextStep old = false) :
      Skips book positionId leg booking .stepTaken book
  | closed (old : PaperRound) (hround : book.db.rounds.lookup positionId = some old)
      (hclosed : old.isOpen = false) :
      Skips book positionId leg booking .alreadyClosed
        { book with opened := book.opened.filter (·.row.id != some positionId) }

/-- A skipped booking leaves the store. -/
theorem Skips.db_eq {book book' : PaperBook} {positionId : ℤ} {leg : PaperLeg}
    {booking : RowBooking}
    {booked : PaperBooked} (h : Skips book positionId leg booking booked book') :
    book'.db = book.db := by
  cases h <;> rfl

/-- `booking` is booked onto the open round `old` of `positionId` under `leg`. -/
structure Books (book : PaperBook) (positionId : ℤ) (leg : PaperLeg) (booking : RowBooking)
    (old round : PaperRound) (booked : PaperBooked) (book' : PaperBook) : Prop where
  lookup : book.db.rounds.lookup positionId = some old
  isOpen : old.isOpen = true
  unrecorded : booking.recorded book.db positionId leg.legRef = false
  nextStep : booking.takesNextStep old = true
  newLeg : book.db.paperLeg leg.legRef = none
  makes : booking.round old = .ok round
  adopted : (booked, book') =
    PaperBook.adopt { book with
      db := book.db.booked positionId old round
        (booking.record positionId leg old) booking.kind leg }
      positionId (.written round)

/-- The round `opening` opens, under the next id. -/
def PaperBook.newRound (book : PaperBook) (opening : Opening) (fill : EntryFill) : PaperRound :=
  ⟨{ openingRow opening fill with id := some book.db.nextId }, 0⟩

/-- The book with the new round `writeOpen` writes. -/
def PaperBook.withNewRound (book : PaperBook) (opening : Opening) (fill : EntryFill)
    (leg : PaperLeg)
    (now : ℤ) : PaperBook :=
  ⟨book.db.openedRound (book.newRound opening fill) (openingEntry book.db.nextId fill leg) leg,
    book.opened ++ [book.newRound opening fill], some now⟩

/-- A commit skips or writes. -/
theorem commit_cases {book book' : PaperBook} {positionId : ℤ} {kind : PaperLegKind}
    {leg : PaperLeg}
    {decision : PaperRound → Except PaperError PaperDecision} {booked : PaperBooked}
    (h : book.commit positionId kind leg decision = .ok (booked, book')) :
    ∃ old, book.db.rounds.lookup positionId = some old ∧
      ((∃ why, decision old = .ok (.skip why) ∧
          (booked, book') = book.adopt positionId (.skipped why)) ∨
        ∃ round record, decision old = .ok (.write round record) ∧
          book.db.paperLeg leg.legRef = none ∧
          (booked, book') =
            ({ book with db := book.db.booked positionId old round record kind leg }
              : PaperBook).adopt
              positionId (.written round)) := by
  obtain ⟨⟨committed, db⟩, hcommit, hret⟩ := bind_eq_ok.mp h
  have hadopt := (Except.ok.inj hret).symm
  rw [hadopt]
  unfold PaperStore.commitPaperBooking at hcommit
  split at hcommit
  · cases hcommit
  next old hold =>
    refine ⟨old, hold, ?_⟩
    obtain ⟨made, hmade, hcommit⟩ := bind_eq_ok.mp hcommit
    cases made with
    | skip why =>
      cases hcommit
      exact .inl ⟨why, hmade, rfl⟩
    | write round record =>
      dsimp only at hcommit
      cases hleg : book.db.paperLeg leg.legRef with
      | some stored =>
        rw [hleg] at hcommit
        cases hcommit
      | none =>
        rw [hleg] at hcommit
        cases hcommit
        exact .inr ⟨round, record, hmade, rfl, rfl⟩

/-- What a decision about an open round does: it skips for a record written or a step taken before,
or books `booking`. -/
def Decided (db : PaperStore) (positionId : ℤ) (leg : PaperLeg) (booking : RowBooking)
    (old : PaperRound) : PaperDecision → Prop
  | .skip .closed => False
  | .skip .alreadyBooked => booking.recorded db positionId leg.legRef = true
  | .skip .stepTaken => booking.takesNextStep old = false
  | .write round record => booking.recorded db positionId leg.legRef = false ∧
      booking.takesNextStep old = true ∧ booking.round old = .ok round ∧
      record = booking.record positionId leg old

theorem commit_step {book book' : PaperBook} {positionId : ℤ} {leg : PaperLeg}
    {booking : RowBooking}
    {decide : PaperRound → Except PaperError PaperDecision} {booked : PaperBooked}
    (hdecide : ∀ old decision, decide old = .ok decision →
      Decided book.db positionId leg booking old decision)
    (h : book.commit positionId booking.kind leg (fun round =>
      if !round.isOpen then .ok (.skip .closed) else decide round) = .ok (booked, book')) :
    Skips book positionId leg booking booked book' ∨
      ∃ old round, Books book positionId leg booking old round booked book' := by
  obtain ⟨old, hold, ⟨why, hskip, he⟩ | ⟨round, record, hwrite, hleg, he⟩⟩ := commit_cases h
  · left
    cases why with
    | closed =>
      cases he
      refine .closed old hold ?_
      split at hskip
      next hclosed => simpa using hclosed
      next => exact (hdecide old _ hskip).elim
    | alreadyBooked =>
      cases he
      split at hskip
      · cases hskip
      · exact .alreadyBooked (hdecide old _ hskip)
    | stepTaken =>
      cases he
      split at hskip
      · cases hskip
      · exact .stepTaken old (hdecide old _ hskip)
  · right
    split at hwrite
    · cases hwrite
    next hopen =>
      obtain ⟨hrecorded, hstep, hround, rfl⟩ := hdecide old _ hwrite
      exact ⟨old, round, hold, by simpa using hopen, hrecorded, hstep, hleg, hround, he⟩

theorem lift_eq_ok {α : Type} {x : Except BookingError α} {a : α}
    (h : PaperError.lift x = .ok a) : x = .ok a := by
  cases x with
  | error e => cases h
  | ok b => exact congrArg Except.ok (Except.ok.inj h)

theorem writeDca_cases {book book' : PaperBook} {positionId : ℤ} {fill : DcaFill} {fillPrice : ℚ}
    {decimals : ℕ} {leg : PaperLeg} {booked : PaperBooked}
    (h : book.writeDca positionId fill fillPrice decimals leg = .ok (booked, book')) :
    Skips book positionId leg (.dca fill fillPrice decimals) booked book' ∨
      ∃ old round, Books book positionId leg
        (.dca fill fillPrice decimals) old round booked book' := by
  refine commit_step (fun old decision hdecided => ?_) h
  split at hdecided
  next hrecorded =>
    cases hdecided
    exact hrecorded
  next hrecorded =>
    obtain ⟨row, hrow, hret⟩ := bind_eq_ok.mp hdecided
    cases hret
    refine ⟨by simpa [RowBooking.recorded] using hrecorded, rfl, ?_, rfl⟩
    exact bind_eq_ok.mpr ⟨row, lift_eq_ok hrow, rfl⟩

theorem partialExit_cases {book book' : PaperBook} {positionId : ℤ} {fill : PartialExitFill}
    {percentage : ℚ} {takeProfitLevel : Option ℕ} {leg : PaperLeg} {booked : PaperBooked}
    (h : book.partialExit positionId fill percentage takeProfitLevel leg = .ok (booked, book')) :
    Skips book positionId leg (.partialExit fill percentage takeProfitLevel) booked book' ∨
      ∃ old round, Books book positionId leg
        (.partialExit fill percentage takeProfitLevel) old round
        booked book' := by
  refine commit_step (fun old decision hdecided => ?_) h
  split at hdecided
  next hrecorded =>
    cases hdecided
    exact hrecorded
  next hrecorded =>
    split at hdecided
    next hstep =>
      cases hdecided
      simpa [Decided, RowBooking.takesNextStep] using hstep
    next hstep =>
      obtain ⟨row, hrow, hret⟩ := bind_eq_ok.mp hdecided
      cases hret
      refine ⟨by simpa [RowBooking.recorded] using hrecorded,
        by simpa [RowBooking.takesNextStep] using hstep, ?_, rfl⟩
      exact bind_eq_ok.mpr ⟨row, lift_eq_ok hrow, rfl⟩

theorem close_cases {book book' : PaperBook} {positionId : ℤ} {fill : CloseFill} {exitPrice : ℚ}
    {reason : String} {leg : PaperLeg} {booked : PaperBooked}
    (h : book.close positionId fill exitPrice reason leg = .ok (booked, book')) :
    Skips book positionId leg (.close fill exitPrice reason) booked book' ∨
      ∃ old round, Books book positionId leg
        (.close fill exitPrice reason) old round booked book' := by
  refine commit_step (fun old decision hdecided => ?_) h
  split at hdecided
  next hrecorded =>
    cases hdecided
    exact hrecorded
  next hrecorded =>
    obtain ⟨row, hrow, hret⟩ := bind_eq_ok.mp hdecided
    cases hret
    refine ⟨by simpa [RowBooking.recorded] using hrecorded, rfl, ?_, rfl⟩
    exact bind_eq_ok.mpr ⟨row, lift_eq_ok hrow, rfl⟩

/-- A new round is opened unless its leg is stored. -/
theorem writeOpen_cases {book book' : PaperBook} {opening : Opening} {fill : EntryFill}
    {leg : PaperLeg}
    {now : ℤ} {opened : PaperOpened}
    (h : book.writeOpen opening fill leg now = .ok (opened, book')) :
    book' = book ∨
      book.db.paperLeg leg.legRef = none ∧ book' = book.withNewRound opening fill leg now := by
  obtain ⟨inserted, hinsert, h⟩ := bind_eq_ok.mp h
  unfold PaperStore.insertPaperRound at hinsert
  split at hinsert
  · cases hinsert
    obtain ⟨found, -, hret⟩ := bind_eq_ok.mp h
    cases hret
    exact .inl rfl
  next hleg =>
    split at hinsert
    · cases hinsert
    · cases hinsert
      cases h
      exact .inr ⟨hleg, rfl⟩

/-- What a sale of `sold` tokens books on its round. -/
def PaperSale.booking (fill : PaperSellFill) (leg : PaperLeg) (sold : ℕ) : PaperSale → RowBooking
  | .partialExit percentage takeProfitLevel => .partialExit
    ⟨sold, fill.netProceedsSol, fill.fillPriceSol, none, nativeToRaw fill.networkFeeSol⟩
    percentage takeProfitLevel
  | .full exitPrice reason => .close
    ⟨fill.fillPriceSol, fill.netProceedsSol, nativeToRaw fill.networkFeeSol, leg.time⟩
      exitPrice reason

theorem bookSale_cases {book book' : PaperBook} {positionId : ℤ} {mint : String}
    {fill : PaperSellFill}
    {sale : PaperSale} {leg : PaperLeg} {booked : PaperBooked}
    (h : book.bookSale positionId mint fill sale leg = .ok (booked, book')) :
    ∃ sold decimals, quotedAmount mint fill.quote true = .ok (sold, decimals) ∧
      (Skips book positionId leg (sale.booking fill leg sold) booked book' ∨
        ∃ old round, Books book positionId leg
          (sale.booking fill leg sold) old round booked book') := by
  obtain ⟨⟨sold, decimals⟩, hsold, h⟩ := bind_eq_ok.mp h
  refine ⟨sold, decimals, hsold, ?_⟩
  cases sale with
  | partialExit percentage takeProfitLevel => exact partialExit_cases h
  | full exitPrice reason => exact close_cases h

/-- The fill of a close at `mark` of a round read with `held` tokens. -/
def markFill (held decimals : ℕ) (mark : ℚ) : PaperSellFill where
  tokenAmount := Rounded.toWholeUnits held decimals
  marketPriceSol := mark
  pricedFromPool := true
  fillPriceSol := mark
  grossSol := Binary64.mul (Rounded.toWholeUnits held decimals) mark
  referralFeeSol := 0
  networkFeeSol := 0
  priorityFeeSol := 0
  netProceedsSol := Binary64.mul (Rounded.toWholeUnits held decimals) mark
  model := .mark
  quote := none

/-- A settled round is closed at a mark for what it was read to hold, without a fee. -/
theorem settleRound_cases {book book' : PaperBook} {snapshot : PaperRound} {currentPrice : Option ℚ}
    {decimalsOf : String → Option ℕ} {reason key : String} {now : ℤ} {booked : PaperBooked}
    (h : book.settleRound snapshot currentPrice decimalsOf reason key now = .ok (booked, book')) :
    ∃ positionId decimals, snapshot.row.id = some positionId ∧
      decimalsOf snapshot.row.mint = some decimals ∧ 0 < snapshot.lastMark currentPrice ∧
      let mark := snapshot.lastMark currentPrice
      let fill := markFill (snapshot.row.heldAmount.getD 0) decimals mark
      let booking := RowBooking.close ⟨mark, fill.netProceedsSol, 0, now⟩ mark reason
      let leg := PaperLeg.sell fill none now key
      Skips book positionId leg booking booked book' ∨
        ∃ old round, Books book positionId leg booking old round booked book' := by
  unfold PaperBook.settleRound at h
  split at h
  · cases h
  next decimals hdecimals =>
    unfold PaperBook.closeAtMark at h
    split at h
    · cases h
    next positionId hid =>
      dsimp only at h
      split at h
      · cases h
      next hmark =>
        exact ⟨positionId, decimals, hid, hdecimals, not_le.mp hmark, close_cases h⟩

/-- What writing an order makes of the book: a new round, a fill booked onto the order's round, or
nothing but a closed round taken out of memory. -/
inductive OrderStep (book : PaperBook) (order : PaperOrder) : PaperBook → Prop where
  | unchanged : OrderStep book order book
  | skipped {positionId : ℤ} {booking : RowBooking} {booked : PaperBooked} {book' : PaperBook}
      (htarget : order.target = some positionId)
      (h : Skips book positionId order.leg booking booked book') : OrderStep book order book'
  | opened {opening : Opening} {fill : EntryFill} {now : ℤ} (htarget : order.target = none)
      (newLeg : book.db.paperLeg order.leg.legRef = none) :
      OrderStep book order (book.withNewRound opening fill order.leg now)
  | booked {positionId : ℤ} {booking : RowBooking} {old round : PaperRound} {booked : PaperBooked}
      {book' : PaperBook} (htarget : order.target = some positionId)
      (h : Books book positionId order.leg booking old round booked book') :
        OrderStep book order book'

theorem order_step {book book' : PaperBook} {order : PaperOrder} {now : ℤ}
    (h : order.write book now = .ok book') : OrderStep book order book' := by
  cases order with
  | buy opening fill leg terms =>
    obtain ⟨entry, -, h⟩ := bind_eq_ok.mp h
    obtain ⟨⟨opened, after⟩, hwrite, hret⟩ := bind_eq_ok.mp h
    cases hret
    rcases writeOpen_cases hwrite with rfl | ⟨hleg, rfl⟩
    · exact .unchanged
    · exact .opened rfl hleg
  | add positionId mint fill leg epoch =>
    obtain ⟨⟨dca, decimals⟩, -, h⟩ := bind_eq_ok.mp h
    obtain ⟨⟨booked, after⟩, hwrite, hret⟩ := bind_eq_ok.mp h
    cases hret
    rcases writeDca_cases hwrite with hskips | ⟨old, round, hbooks⟩
    · exact .skipped rfl hskips
    · exact .booked rfl hbooks
  | sale positionId mint fill sale leg epoch =>
    obtain ⟨⟨booked, after⟩, hwrite, hret⟩ := bind_eq_ok.mp h
    cases hret
    obtain ⟨sold, decimals, -, hskips | ⟨old, round, hbooks⟩⟩ := bookSale_cases hwrite
    · exact .skipped rfl hskips
    · exact .booked rfl hbooks

end Paper

end ScreenerBot.Positions
