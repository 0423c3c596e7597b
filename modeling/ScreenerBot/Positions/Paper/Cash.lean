import ScreenerBot.Library.Movements
import ScreenerBot.Positions.Paper.Capacity

/-! The cash of a paper run: what a priced sale brings in, and what the P&L of a closed round
counts. The sums of the source are `f64` folds; what they come to is said where they round
nothing. -/
namespace ScreenerBot.Positions

open Library Trader

/-- What a position brought in less what it took out. -/
def Position.cashFlow (p : Position) : ℚ :=
  p.nativeReceived.getD 0 - p.totalSizeNative - p.totalFees

/-- The fees of a position once a sale that cost `feeRaw` is booked. -/
def Position.feesAfter (p : Position) (feeRaw : ℕ) : ℚ :=
  { p with exitFeeRaw := addFee p.exitFeeRaw feeRaw }.totalFees

namespace Paper

/-- What the cash of a run comes to when no sum is rounded. -/
def PaperBook.cashSum (book : PaperBook) (epoch : PaperEpoch) : ℚ :=
  epoch.startingBalanceNative +
    ((book.db.positionsEnteredSince epoch.startedAt).map Position.cashFlow).sum

/-- The cash of a run is the exact sum. -/
def PaperBook.CashExact (book : PaperBook) (epoch : PaperEpoch) : Prop :=
  (book.accountIn epoch).cashNative = book.cashSum epoch

instance (book : PaperBook) (epoch : PaperEpoch) : Decidable (book.CashExact epoch) :=
  inferInstanceAs (Decidable (_ = _))

/-- What a round counts in the cash of a run that started at `since`. -/
def PaperRound.counted (since : ℤ) (round : PaperRound) : ℚ :=
  if since ≤ round.row.entryTime then round.row.cashFlow else 0

theorem cashSum_eq (book : PaperBook) (epoch : PaperEpoch) :
    book.cashSum epoch = epoch.startingBalanceNative +
      ((values book.db.rounds).map (PaperRound.counted epoch.startedAt)).sum := by
  simp only [PaperBook.cashSum, PaperStore.positionsEnteredSince, values]
  congr 1
  induction book.db.rounds.entries with
  | nil => rfl
  | cons entry entries ih =>
    rw [List.map_cons, List.map_cons, List.map_cons, List.sum_cons, ← ih, PaperRound.counted]
    by_cases h : epoch.startedAt ≤ entry.2.row.entryTime
    · simp [h]
    · simp [h]

/-- What the round `positionId` counts in the cash of a run that started at `since`. -/
def PaperStore.countedAt (db : PaperStore) (since : ℤ) (positionId : ℤ) : ℚ :=
  (db.rounds.lookup positionId).elim 0 (PaperRound.counted since)

/-- A written round moves the cash by what it counts more than before. -/
theorem cash_insert {book book' : PaperBook} {positionId : ℤ} {round : PaperRound}
    (h : book'.db.rounds = book.db.rounds.insert positionId round) (epoch : PaperEpoch) :
    book'.cashSum epoch - book.cashSum epoch =
      book'.db.countedAt epoch.startedAt positionId -
        book.db.countedAt epoch.startedAt positionId := by
  rw [cashSum_eq, cashSum_eq, h, sum_values_insert, PaperStore.countedAt, PaperStore.countedAt, h,
    AList.lookup_insert, Option.elim_some]
  ring

/-- A sale brings its proceeds in, less what its fee raises the fees by. -/
theorem sale_flow {fill : PaperSellFill} {sale : PaperSale} {leg : PaperLeg} {sold : ℕ}
    {old round : PaperRound} (h : (sale.booking fill leg sold).round old = .ok round)
    (hreceived : Binary64.add (old.row.nativeReceived.getD 0) fill.netProceedsSol =
      old.row.nativeReceived.getD 0 + fill.netProceedsSol) :
    round.row.cashFlow = old.row.cashFlow + fill.netProceedsSol -
      (old.row.feesAfter (nativeToRaw fill.networkFeeSol) - old.row.totalFees) := by
  cases sale with
  | partialExit percentage takeProfitLevel =>
    obtain ⟨row, hrow, hret⟩ := bind_eq_ok.mp h
    obtain ⟨exited, hexited, hrow⟩ := bind_eq_ok.mp hrow
    cases hret
    cases hrow
    rw [(Position.bookExit_ok hexited).2]
    simp only [Position.cashFlow, Position.feesAfter, Position.totalFees, Option.getD_some,
      hreceived]
    ring
  | full exitPrice reason =>
    obtain ⟨row, hrow, hret⟩ := bind_eq_ok.mp h
    obtain ⟨exited, hexited, hrow⟩ := bind_eq_ok.mp hrow
    cases hret
    cases hrow
    rw [(Position.bookRemainingAsExited_ok hexited).2]
    simp only [Position.restatePnl, Position.cashFlow, Position.feesAfter, Position.totalFees,
      Option.getD_some, hreceived]
    ring

/-- Only a close closes a round, with the P&L taken from what is booked on it. -/
theorem closed_pnl {booking : RowBooking} {old round : PaperRound} (hopen : old.isOpen = true)
    (h : booking.round old = .ok round) (hclosed : round.isOpen = false) :
    round.row.pnl = some round.row.realizedPnl.1 := by
  cases booking with
  | dca fill fillPrice decimals =>
    obtain ⟨row, hrow, hret⟩ := bind_eq_ok.mp h
    obtain ⟨held, hheld, hrow⟩ := bind_eq_ok.mp hrow
    obtain ⟨average, peak, restarted, hblend⟩ :=
      row.blendAverageEntryPrice_moves fill.tokensBought fill.nativeSpent decimals
    rw [hblend] at hret
    cases hret
    cases hrow
    rw [Position.bookAcquisition_ok hheld] at hclosed
    exact absurd (hopen.symm.trans hclosed) nofun
  | partialExit fill percentage takeProfitLevel =>
    obtain ⟨row, hrow, hret⟩ := bind_eq_ok.mp h
    obtain ⟨exited, hexited, hrow⟩ := bind_eq_ok.mp hrow
    cases hret
    cases hrow
    rw [(Position.bookExit_ok hexited).2] at hclosed
    exact absurd (hopen.symm.trans hclosed) nofun
  | close fill exitPrice reason =>
    obtain ⟨row, hrow, hret⟩ := bind_eq_ok.mp h
    obtain ⟨exited, hexited, hrow⟩ := bind_eq_ok.mp hrow
    cases hret
    cases hrow
    rfl

/-- A settled sale nets its network fee out of the quoted output. -/
theorem checkedSamples_fee {request : QuoteRequest} {initial landing : Quote} {fee checked : ℕ}
    (h : checkedSamples request initial landing = .ok checked)
    (hfee : landing.estimatedNetworkFeeLamports = some fee) : checked = fee := by
  unfold checkedSamples at h
  rw [hfee] at h
  split at h
  · cases h
  · split at h
    next hlanding =>
      cases hlanding
      split at h
      · cases h
      · cases h
        rfl
    · cases h

theorem settled_sale {request : QuoteRequest} {tokenDecimals : ℕ} {initial landing : Quote}
    {times : QuoteTimes} {epoch fee : ℕ} {fill : PaperSellFill}
    (h : settleQuoteSamples request tokenDecimals initial landing times epoch = .ok (.sell fill))
    (hfee : landing.estimatedNetworkFeeLamports = some fee) :
    fill.netProceedsSol = Binary64.sub
      (Rounded.toWholeUnits landing.outputAmount nativeAssetDecimals)
      (Rounded.rawToNative fee) := by
  unfold settleQuoteSamples at h
  dsimp only at h
  split at h
  · cases h
  · obtain ⟨checked, hchecked, h⟩ := bind_eq_ok.mp h
    rw [checkedSamples_fee hchecked hfee] at h
    split at h
    · split at h
      · cases h
      · split at h
        · cases h
        · cases h
    · split at h
      · cases h
      · split at h
        · cases h
        · cases h
          rfl

/-- A sale booked on `old` at `output` and `fee` rounds nothing: not its proceeds, not what the
round received, and not the cash of the run before and after it. -/
structure SaleExact (epoch : PaperEpoch) (book book' : PaperBook) (old : PaperRound)
    (output fee : ℚ) : Prop where
  proceeds : Binary64.sub output fee = output - fee
  received : Binary64.add (old.row.nativeReceived.getD 0) (output - fee) =
    old.row.nativeReceived.getD 0 + (output - fee)
  before : book.CashExact epoch
  after : book'.CashExact epoch

/-- A booked sale moves the cash of a run its round counts in by its proceeds, less what its fee
raises the fees by. -/
theorem sale_cash {book book' : PaperBook} {positionId : ℤ} {mint : String} {fill : PaperSellFill}
    {sale : PaperSale} {leg : PaperLeg} {old round : PaperRound} {epoch : PaperEpoch}
    (hround : book.db.rounds.lookup positionId = some old)
    (hcounts : epoch.startedAt ≤ old.row.entryTime)
    (h : book.bookSale positionId mint fill sale leg = .ok (.booked round, book'))
    (hreceived : Binary64.add (old.row.nativeReceived.getD 0) fill.netProceedsSol =
      old.row.nativeReceived.getD 0 + fill.netProceedsSol) :
    book'.cashSum epoch = book.cashSum epoch + fill.netProceedsSol -
      (old.row.feesAfter (nativeToRaw fill.networkFeeSol) - old.row.totalFees) := by
  obtain ⟨sold, decimals, -, hskips | ⟨found, made, hbooks⟩⟩ := bookSale_cases h
  · cases hskips
  · obtain rfl : found = old := Option.some.inj (hbooks.lookup.symm.trans hround)
    have hmoved := cash_insert hbooks.rounds_eq epoch
    have hentry := (RowBooking.round_moves hbooks.makes).entryTime
    have hflow := sale_flow hbooks.makes hreceived
    have hafter : book'.db.countedAt epoch.startedAt positionId = made.row.cashFlow := by
      rw [PaperStore.countedAt, hbooks.rounds_eq, AList.lookup_insert]
      exact if_pos (hentry.symm ▸ hcounts)
    have hbefore : book.db.countedAt epoch.startedAt positionId = found.row.cashFlow := by
      rw [PaperStore.countedAt, hround]
      exact if_pos hcounts
    rw [hafter, hbefore, hflow] at hmoved
    linarith

/-- What a step newly stores of legs. -/
def PaperDesk.newLegs (desk : PaperDesk) (action : DeskAction) : List PaperLegRecord :=
  (desk.step action).book.db.legs.drop desk.book.db.legs.length

/-- Whether a leg of this kind sells. -/
def PaperLegKind.sells : PaperLegKind → Bool
  | .entry | .dca => false
  | .partialExit | .exit => true

/-- What a step brings into the cash of `epoch` by a sale of the round `positionId`. -/
def PaperDesk.broughtIn (epoch : PaperEpoch) (positionId : ℤ) (p : PaperDesk × DeskAction) : ℚ :=
  if (p.1.newLegs p.2).any fun leg => leg.positionId == positionId && leg.kind.sells then
    ((p.1.step p.2).book.accountIn epoch).cashNative - (p.1.book.accountIn epoch).cashNative
  else 0

/-- What a step takes out of the cash of `epoch` by a buy of the round `positionId`. -/
def PaperDesk.takenOut (epoch : PaperEpoch) (positionId : ℤ) (p : PaperDesk × DeskAction) : ℚ :=
  if (p.1.newLegs p.2).any fun leg => leg.positionId == positionId && !leg.kind.sells then
    (p.1.book.accountIn epoch).cashNative - ((p.1.step p.2).book.accountIn epoch).cashNative
  else 0

/-- The P&L of a round once closed is taken from what is booked on it. -/
def PaperRound.Settled (round : PaperRound) : Prop :=
  round.isOpen = false → round.row.pnl = some round.row.realizedPnl.1

/-- One leg stored with its round written. -/
structure Stores (db db' : PaperStore) (leg : PaperLegRecord) (round : PaperRound) : Prop where
  legs : db'.legs = db.legs ++ [leg]
  rounds : db'.rounds = db.rounds.insert leg.positionId round
  settled : round.Settled

theorem Books.stores {book book' : PaperBook} {positionId : ℤ} {leg : PaperLeg}
    {booking : RowBooking}
    {old round : PaperRound} {booked : PaperBooked}
    (h : Books book positionId leg booking old round booked book') :
    Stores book.db book'.db ⟨positionId, booking.kind, leg⟩
      { round with row := Store.stored old.row round.row } where
  legs := h.legs_eq
  rounds := h.rounds_eq
  settled hclosed := by
    have hpnl : round.row.pnl = some round.row.realizedPnl.1 := closed_pnl h.isOpen h.makes hclosed
    exact hpnl

/-- A step keeps the rounds and their legs, or stores one leg and writes its round. -/
theorem PaperDesk.step_stores (desk : PaperDesk) (action : DeskAction) :
    (desk.book.db.rounds = (desk.step action).book.db.rounds ∧
        (desk.step action).book.db.legs = desk.book.db.legs) ∨
      ∃ leg round, Stores desk.book.db (desk.step action).book.db leg round := by
  have hstep := desk.desk_step action
  generalize (desk.step action).book = after at hstep ⊢
  cases hstep with
  | kept hsame => exact .inl ⟨hsame.rounds.symm, hsame.legs⟩
  | wrote order now hbooking =>
    have hwrite := @booked_step desk order now
    generalize desk.booked order now = after at hwrite ⊢
    cases hwrite with
    | unchanged => exact .inl ⟨rfl, rfl⟩
    | skipped _ hskips =>
      rw [hskips.db_eq]
      exact .inl ⟨rfl, rfl⟩
    | opened => exact .inr ⟨_, _, newRound_legs, newRound_rounds, nofun⟩
    | booked _ hbooks => exact .inr ⟨_, _, hbooks.stores⟩
  | closedAtMark hcapacity hnew hsettle =>
    obtain ⟨positionId, decimals, -, -, -, hskips | ⟨old, round, hbooks⟩⟩ :=
      settleRound_cases hsettle
    · rw [hskips.db_eq]
      exact .inl ⟨rfl, rfl⟩
    · exact .inr ⟨_, _, hbooks.stores⟩

/-- The cash of `epoch` is the exact sum before a step and after it. -/
def PaperDesk.CashExact (epoch : PaperEpoch) (p : PaperDesk × DeskAction) : Prop :=
  p.1.book.CashExact epoch ∧ (p.1.step p.2).book.CashExact epoch

/-- What a step brings in less what it takes out is what its round counts more in the cash. -/
theorem PaperDesk.step_moved {epoch : PaperEpoch} {positionId : ℤ} {p : PaperDesk × DeskAction}
    (hexact : CashExact epoch p) : broughtIn epoch positionId p - takenOut epoch positionId p =
      (p.1.step p.2).book.db.countedAt epoch.startedAt positionId -
        p.1.book.db.countedAt epoch.startedAt positionId := by
  unfold broughtIn takenOut newLegs
  rcases p.1.step_stores p.2 with ⟨hrounds, hlegs⟩ | ⟨leg, round, hstores⟩
  · simp [hlegs, PaperStore.countedAt, hrounds]
  · rw [hstores.legs, List.drop_left]
    by_cases hid : leg.positionId = positionId
    · subst hid
      have hmoved := cash_insert hstores.rounds epoch
      rw [← hexact.1, ← hexact.2] at hmoved
      cases hkind : leg.kind.sells with
      | true => simp [hkind, hmoved]
      | false => simp [hkind, hmoved]
    · have hsame : (p.1.step p.2).book.db.countedAt epoch.startedAt positionId =
          p.1.book.db.countedAt epoch.startedAt positionId := by
        rw [PaperStore.countedAt, PaperStore.countedAt, hstores.rounds,
          AList.lookup_insert_ne (Ne.symm hid)]
      simp [hid, hsame]

/-- Every round of a run is settled once closed. -/
theorem PaperDesk.step_settled {desk : PaperDesk} (action : DeskAction)
    (h : ∀ positionId round, desk.book.db.rounds.lookup positionId = some round → round.Settled) :
    ∀ positionId round, (desk.step action).book.db.rounds.lookup positionId = some round →
      round.Settled := by
  intro positionId round hround
  rcases desk.step_stores action with ⟨hrounds, -⟩ | ⟨leg, written, hstores⟩
  · exact h positionId round (hrounds ▸ hround)
  · rw [hstores.rounds] at hround
    rcases lookup_insert_cases hround with ⟨-, rfl⟩ | ⟨-, hround⟩
    · exact hstores.settled
    · exact h positionId round hround

/-- A quote that sells one token for two SOL at a network fee of 5000 lamports. -/
def feeSaleQuote : Quote :=
  { oneTokenQuote with
    inputMint := "token"
    outputMint := solMint
    inputAmount := 10 ^ 6
    outputAmount := 2 * 10 ^ 9
    minimumOutputAmount := 2 * 10 ^ 9
    estimatedNetworkFeeLamports := some 5000 }

/-- A round bought for one SOL, with its sale at `feeSaleQuote` priced. -/
def feeSalePriced : PaperDesk :=
  [.account 10 0,
    .priceBuy ⟨"token", "TKN", "Token", 1, none, 1, .manual, .userOnly, 1, 0⟩
      ⟨"wallet", 6, oneTokenQuote, oneTokenQuote, ⟨0, 0, 0, 0⟩, none, "buy", 1⟩,
    .lock 0 1, .write, .target 1,
    .priceSell 0 ⟨.full, none, none, "exit"⟩
      ⟨"wallet", 6, feeSaleQuote, feeSaleQuote, ⟨0, 0, 0, 0⟩, none, "sale", 2⟩].foldl
    PaperDesk.step .new

end Paper

end ScreenerBot.Positions
