import ScreenerBot.Positions.Booked

/-! A late buy is conserved across the rows of its mint. -/
namespace ScreenerBot.Positions
open Library

/-- Row `positionId` changes by the given parts from one store to the other. -/
def RowGains (st st' : Store) (positionId : ℤ) (tokens : ℤ) (cost : ℚ) (feeRaw : ℕ) : Prop :=
  ∃ before after, st.rows.lookup positionId = some before ∧
    st'.rows.lookup positionId = some after ∧ Gains before after tokens cost feeRaw

/-- No row but those of `ids` differs between the stores. -/
def OnlyRows (ids : List ℤ) (st st' : Store) : Prop :=
  ∀ id, id ∉ ids → st'.rows.lookup id = st.rows.lookup id

theorem handOver_rows {st st' : Store} {row : Position} {reading : LateFillReading}
    {openRoundId : ℤ} {record : HandoverRecord}
    (h : handOver st row reading openRoundId record = .ok st') :
    RowGains st st' openRoundId record.handover.tokens record.handover.costNative
        (record.feesRaw.getD 0) ∧ OnlyRows [openRoundId] st st' := by
  obtain ⟨signature, opened, opened', -, -, hopened, hbook, rfl⟩ := handOver_ok h
  constructor
  · exact ⟨opened, Store.stored opened opened', hopened, AList.lookup_insert _,
      (bookHandover_gains hbook).then_still stored_still⟩
  · intro id hid
    exact AList.lookup_insert_ne (List.ne_of_not_mem_cons hid)

section Committed

variable {st booked st' : Store} {positionId : ℤ} {row row' : Position}
  (hst' : st'.rows = booked.rows.insert positionId (Store.stored row row'))
include hst'

theorem committed_gains {tokens : ℤ} {cost : ℚ} {feeRaw : ℕ}
    (hrow : st.rows.lookup positionId = some row) (hgains : Gains row row' tokens cost feeRaw) :
    RowGains st st' positionId tokens cost feeRaw :=
  ⟨row, Store.stored row row', hrow, by rw [hst', AList.lookup_insert],
    hgains.then_still stored_still⟩

theorem committed_beside {openRoundId : ℤ} {tokens : ℤ} {cost : ℚ} {feeRaw : ℕ}
    (hne : openRoundId ≠ positionId) (h : RowGains st booked openRoundId tokens cost feeRaw) :
    RowGains st st' openRoundId tokens cost feeRaw := by
  obtain ⟨before, after, hbefore, hafter, hgains⟩ := h
  exact ⟨before, after, hbefore, by rw [hst', AList.lookup_insert_ne hne, hafter], hgains⟩

theorem committed_only {ids : List ℤ} (h : OnlyRows ids st booked) :
    OnlyRows (positionId :: ids) st st' := by
  intro id hid
  rw [hst', AList.lookup_insert_ne (List.ne_of_not_mem_cons hid),
    h id (List.not_mem_of_not_mem_cons hid)]

end Committed

/-- A late add is booked whole on its closed row, or divides between that row and the open row
of the mint. Tokens the closed row acquired earlier may go along, at their share of its size. -/
def AddConserved (st st' : Store) (positionId : ℤ) (row : Position) (fill : DcaFill) : Prop :=
  (RowGains st st' positionId fill.tokensBought fill.nativeSpent fill.feeRaw ∧
    OnlyRows [positionId] st st') ∨
  ∃ (split : LegSplit) (openRoundId : ℤ), split.Divides fill ∧
    row.Carries split.handedEarlier.tokens split.handedEarlier.costNative ∧
    st.openRoundBeside row.mint positionId = some openRoundId ∧
    RowGains st st' positionId (split.kept.tokens - split.handedEarlier.tokens)
      (Binary64.sub split.kept.costNative split.handedEarlier.costNative) split.keptFeeRaw ∧
    RowGains st st' openRoundId (split.handedLeg.tokens + split.handedEarlier.tokens)
      (Binary64.add split.handedLeg.costNative split.handedEarlier.costNative) split.handedFeeRaw ∧
    OnlyRows [positionId, openRoundId] st st'

/-- A late entry is filled whole on its closed row, which then may give a part of everything it
acquired to the open row of the mint. -/
def EntryConserved (st st' : Store) (positionId : ℤ) (row : Position) (fill : EntryFill) : Prop :=
  ∃ after, st'.rows.lookup positionId = some after ∧
    ((Still (row.applyEntryFill fill) after ∧ OnlyRows [positionId] st st') ∨
      ∃ (tokens : ℕ) (cost : ℚ) (openRoundId : ℤ),
        (row.applyEntryFill fill).Carries tokens cost ∧
        st.openRoundBeside row.mint positionId = some openRoundId ∧
        Gains (row.applyEntryFill fill) after (-tokens) (-cost) 0 ∧
        RowGains st st' openRoundId tokens cost 0 ∧
        OnlyRows [positionId, openRoundId] st st')

theorem dcaVerified_conserves {st : Store} {readings : Readings} {positionId : ℤ}
    {row : Position} {fill : DcaFill} {price : ℚ} {signature : String} {heldAfter : Option ℕ}
    (hrow : st.rows.lookup positionId = some row) (hclosed : row.isClosed = true)
    (hspent : 0 ≤ fill.nativeSpent) (hvalue : Representable fill.nativeSpent)
    (h : books st ⟨.dcaVerified positionId fill price signature heldAfter, readings⟩ = true) :
    AddConserved st (deliver st ⟨.dcaVerified positionId fill price signature heldAfter, readings⟩)
      positionId row fill := by
  obtain ⟨row', late, h⟩ := books_ok h
  obtain ⟨old, booked, record, hold, hbook, hst'⟩ := commitBooking_ok h
  have hst' := committed_rows hst'
  cases hrow.symm.trans hold
  obtain ⟨filled, late', kept, hlate, hfilled, -⟩ := bookDcaVerified_closed hclosed hbook
  rcases lateDca_ok hclosed hlate with ⟨-, rfl, -, hgains⟩ |
    ⟨openRoundId, record, split, -, hopen, hof, hcarries, -, hfees, htokens, hcost, hgains,
      hmoved⟩
  · exact .inl ⟨committed_gains hst' hrow (hgains.then_still hfilled),
      committed_only hst' fun _ _ => rfl⟩
  · obtain ⟨hopened, honly⟩ := handOver_rows hmoved
    rw [hfees, htokens, hcost, Nat.cast_add] at hopened
    exact .inr ⟨split, openRoundId, hof hspent hvalue, hcarries, hopen,
      committed_gains hst' hrow (hgains.then_still hfilled),
      committed_beside hst' (openRoundBeside_ok hopen).1 hopened, committed_only hst' honly⟩

theorem entryVerified_conserves {st : Store} {readings : Readings} {positionId : ℤ}
    {row : Position} {fill : EntryFill} {heldAfter : Option ℕ}
    (hrow : st.rows.lookup positionId = some row) (hclosed : row.isClosed = true)
    (h : books st ⟨.entryVerified positionId fill heldAfter, readings⟩ = true) :
    EntryConserved st (deliver st ⟨.entryVerified positionId fill heldAfter, readings⟩)
      positionId row fill := by
  obtain ⟨row', late, h⟩ := books_ok h
  obtain ⟨old, booked, record, hold, hbook, hst'⟩ := commitBooking_ok h
  have hst' := committed_rows hst'
  cases hrow.symm.trans hold
  obtain ⟨filled, late', hlate, hfilled⟩ := bookEntryVerified_closed hclosed hbook
  have hafter : (deliver st ⟨.entryVerified positionId fill heldAfter, readings⟩).rows.lookup
      positionId = some (Store.stored row row') := by
    rw [hst']
    exact AList.lookup_insert _
  refine ⟨_, hafter, ?_⟩
  rcases lateFill_ok (show (row.applyEntryFill fill).isClosed = true from hclosed) hlate with
    ⟨-, rfl, hgains⟩ | ⟨openRoundId, record, -, hopen, hfees, hcarries, hgains, hmoved⟩
  · exact .inl ⟨(hgains.trans hfilled).trans stored_still,
      committed_only hst' fun _ _ => rfl⟩
  · obtain ⟨hopened, honly⟩ := handOver_rows hmoved
    rw [hfees, Option.getD_none] at hopened
    exact .inr ⟨_, _, openRoundId, hcarries, hopen,
      (hgains.then_still hfilled).then_still stored_still,
      committed_beside hst' (openRoundBeside_ok hopen).1 hopened, committed_only hst' honly⟩

/-- What a late buy moves is conserved across the rows of its mint, whichever transition
carries it. -/
theorem late_buy_conserved {st : Store} {readings : Readings} {positionId : ℤ} {row : Position}
    (hrow : st.rows.lookup positionId = some row) (hclosed : row.isClosed = true) :
    (∀ fill price signature heldAfter, 0 ≤ fill.nativeSpent → Representable fill.nativeSpent →
      books st ⟨.dcaVerified positionId fill price signature heldAfter, readings⟩ = true →
      AddConserved st
        (deliver st ⟨.dcaVerified positionId fill price signature heldAfter, readings⟩)
        positionId row fill) ∧
    ∀ fill heldAfter, books st ⟨.entryVerified positionId fill heldAfter, readings⟩ = true →
      EntryConserved st (deliver st ⟨.entryVerified positionId fill heldAfter, readings⟩)
        positionId row fill :=
  ⟨fun _ _ _ _ hspent hvalue h => dcaVerified_conserves hrow hclosed hspent hvalue h,
    fun _ _ h => entryVerified_conserves hrow hclosed h⟩

/-- An open row of the mint `mint` that bought 200 tokens for 2. -/
def openRow (mint : String) : Position where
  id := none
  mint := mint
  symbol := "SYM"
  name := "Symbol"
  entryPrice := Binary64.div 1 100
  entryTime := 100
  exitPrice := none
  exitTime := none
  entrySizeNative := 2
  totalSizeNative := 2
  basisPeakPrice := 0
  basisPeakRestarted := false
  entryTransactionSignature := some "open-buy"
  exitTransactionSignature := none
  tokenAmount := some 200
  effectiveEntryPrice := some (Binary64.div 1 100)
  effectiveExitPrice := none
  nativeReceived := none
  transactionEntryVerified := true
  transactionExitVerified := false
  entryFeeRaw := some 5
  exitFeeRaw := none
  syntheticExit := false
  closedReason := none
  exitStrategyId := none
  pnl := none
  pnlPercent := none
  unrealizedPnl := none
  unrealizedPnlPercent := none
  remainingTokenAmount := some 200
  totalExitedAmount := 0
  averageExitPrice := none
  partialExitCount := 0
  dcaCount := 0
  averageEntryPrice := Binary64.div 1 100
  lastDcaTime := none
  archived := false
  archivedAt := none
  origin := .manual
  management := .userOnly
  roundKey := none
  basisComplete := true
  historyComplete := true
  holdingState := none

/-- A row of the mint that bought 100 tokens for 1 and was closed by a sale. -/
def closedRow (mint : String) : Position :=
  { openRow mint with
    id := some 1
    entryTime := 10
    exitTime := some 50
    entrySizeNative := 1
    totalSizeNative := 1
    entryTransactionSignature := some "closed-buy"
    exitTransactionSignature := some "closed-sale"
    tokenAmount := some 100
    nativeReceived := some 2
    transactionExitVerified := true
    closedReason := some "take_profit"
    remainingTokenAmount := some 0
    totalExitedAmount := 100 }

/-- A closed row beside the open row of its mint. -/
def besideOpen : Store where
  rows := (AList.insert (2 : ℤ) { openRow "mint" with id := some 2 } ∅).insert 1 (closedRow "mint")
  entries := []
  exits := []

def quietReadings : Readings := ⟨false, false, some 0, none⟩

/-- A late add of 50 tokens, with 320 in the wallet: 120 of them are of the closed row. -/
def lateAdd : DcaFill := ⟨50, 1 / 2, 10, 40⟩

def lateAddDelivery : Delivery :=
  ⟨.dcaVerified 1 lateAdd (Binary64.div 1 100) "late-buy" (some 320), quietReadings⟩

/-- A late entry of the closed row, whose 100 tokens the wallet still holds. -/
def lateEntry : EntryFill := ⟨Binary64.div 1 100, 100, 10, 1⟩

def lateEntryDelivery : Delivery := ⟨.entryVerified 1 lateEntry (some 300), quietReadings⟩

/-- The closed row before its entry was verified. -/
def unverifiedRow : Position :=
  { closedRow "mint" with
    transactionEntryVerified := false
    remainingTokenAmount := none
    totalExitedAmount := 0
    syntheticExit := true }

def unverifiedBesideOpen : Store :=
  { besideOpen with rows := besideOpen.rows.insert 1 unverifiedRow }

theorem late_buy_conserved_besideOpen :
    AddConserved besideOpen (deliver besideOpen lateAddDelivery) 1 (closedRow "mint") lateAdd ∧
      EntryConserved unverifiedBesideOpen (deliver unverifiedBesideOpen lateEntryDelivery) 1
        unverifiedRow lateEntry :=
  ⟨(late_buy_conserved rfl rfl).1 lateAdd (Binary64.div 1 100) "late-buy" (some 320)
    (by decide +kernel)
      ⟨1, -1, by norm_num [lateAdd], by norm_num, by norm_num⟩ (by decide +kernel),
    (late_buy_conserved rfl rfl).2 lateEntry (some 300) (by decide +kernel)⟩

/-- The two rows change by parts of the buy alone, neither of them negative. -/
def SplitsExactly (st st' : Store) (positionId openRoundId : ℤ) (fill : DcaFill) : Prop :=
  ∃ (kept handed : Leg) (keptFeeRaw handedFeeRaw : ℕ),
    kept.tokens + handed.tokens = fill.tokensBought ∧
    kept.costNative + handed.costNative = fill.nativeSpent ∧
    keptFeeRaw + handedFeeRaw = fill.feeRaw ∧ 0 ≤ kept.costNative ∧ 0 ≤ handed.costNative ∧
    RowGains st st' positionId kept.tokens kept.costNative keptFeeRaw ∧
    RowGains st st' openRoundId handed.tokens handed.costNative handedFeeRaw

/-- A late add of 33 tokens for 0.9 SOL, of which the wallet holds 13 beside the open row's. -/
def unevenAdd : DcaFill := ⟨33, Binary64.div 9 10, 0, 40⟩

/-- Tokens beyond the buy are handed over with it, so the open row gains more than its part and
the closed row loses. Where none are, the costs of the two parts are rounded apart. -/
theorem earlier_tokens_go_along :
    (books besideOpen lateAddDelivery = true ∧
      ¬ SplitsExactly besideOpen (deliver besideOpen lateAddDelivery) 1 2 lateAdd) ∧
    let split := (closedRow "mint").splitLeg unevenAdd 13 100
    split.handedEarlier.tokens = 0 ∧
      split.kept.costNative + split.handedLeg.costNative ≠ unevenAdd.nativeSpent := by
  refine ⟨⟨by decide +kernel, ?_⟩, by decide +kernel, by decide +kernel⟩
  rintro ⟨kept, handed, keptFeeRaw, handedFeeRaw, -, -, -, -, -, ⟨before, after, hb, ha, hgains⟩, -⟩
  have hbefore : (besideOpen.rows.lookup 1).map Position.acquired = some 100 := by decide +kernel
  have hafter : ((deliver besideOpen lateAddDelivery).rows.lookup 1).map Position.acquired =
      some 30 := by decide +kernel
  rw [hb, Option.map_some, Option.some.injEq] at hbefore
  rw [ha, Option.map_some, Option.some.injEq] at hafter
  have hacquired := hgains.acquired
  omega

end ScreenerBot.Positions
